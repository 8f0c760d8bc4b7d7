import MdInfoSet.Core.Mem
import MdInfoSet.Core.XorStream

/-!
# The XOR key of the DCE UDP feed

`src/gz_dce_udp/src/gz_dce_md.cpp:619-731`. Every packet is XORed with a repeated
64-byte key. `GenKey_290` derives the key from a 290-byte packet, of which it
takes 65 plaintext bytes for granted: the length, the system date, `DBL_MAX` in
unused price fields and zeroes.

* `knownBytes`: the assignments of `GenKey_290`, in its order.
* **Recovery.** The assumed bytes cover all 64 key positions, so the key comes
  out exactly and every packet under it is restored (`genKey290_recovers`).
-/
namespace MdInfoSet.L1.DceKey

open MdInfoSet.XorStream

instance neZero_sixtyFour : NeZero 64 := ⟨by decide⟩

abbrev CalcKey := Key 64

/-- mirrors src/gz_dce_udp/src/gz_dce_md.cpp:619-623 -/
def decrypt (mCalcKey : CalcKey) (input : Bytes) : Bytes := crypt mCalcKey input

/-- `DBL_MAX_MEN` -/
def dblMaxMen : Bytes := [0xff, 0xff, 0xff, 0xff, 0xff, 0xff, 0xef, 0x7f]

/-- Byte `i` of a little-endian value, `len_ptr[i]` and `date_ptr[i]`. -/
def leByte (v : Nat) (i : Nat) : UInt8 := UInt8.ofNat (v / 256 ^ i)

/-- The bytes `bs` from offset `off` on. -/
def from' (off : Nat) (bs : Bytes) : List (Nat × UInt8) := bs.mapIdx fun i b => (off + i, b)

def zeros (n : Nat) : Bytes := List.replicate n 0

@[simp] theorem zeros_length (n : Nat) : (zeros n).length = n := List.length_replicate

/-- The offsets whose plaintext `GenKey_290` takes for granted, with that
plaintext, in the order of its assignments. A bare `msg[i]` is a known 0. -/
def knownBytes (len : Nat) (date : UInt32) : List (Nat × UInt8) :=
  from' 0 [leByte len 0, leByte len 1] ++
  from' 177 [leByte date.toNat 0, leByte date.toNat 1, leByte date.toNat 2, leByte date.toNat 3] ++
  from' 193 (zeros 1) ++
  from' 206 dblMaxMen ++
  from' 214 (zeros 4) ++
  from' 218 dblMaxMen ++
  from' 226 dblMaxMen ++
  from' 234 (dblMaxMen.take 7) ++
  from' 245 (dblMaxMen.drop 3) ++
  from' 58 (zeros 6) ++
  from' 66 (zeros 12)

/-- mirrors src/gz_dce_udp/src/gz_dce_md.cpp:625-731
`date` is what `getsysdate2()` returns during the call. -/
def genKey290 (mCalcKey : CalcKey) (msg : Bytes) (date : UInt32) : CalcKey :=
  recover (knownBytes msg.length date) (Mem.ofBytes msg) mCalcKey

/-- A 290-byte plaintext with the bytes `GenKey_290` assumes. -/
structure Assumed (date : UInt32) (p : Bytes) : Prop where
  length : p.length = 290
  len : p[0]? = some 0x22 ∧ p[1]? = some 0x01
  date : ∀ i, i < 4 → p[177 + i]? = some (leByte date.toNat i)
  dblMax : ∀ off ∈ [206, 218, 226], ∀ i, i < 8 → p[off + i]? = dblMaxMen[i]?
  dblMax7 : ∀ i, i < 7 → p[234 + i]? = dblMaxMen[i]?
  dblMax5 : ∀ i, i < 5 → p[245 + i]? = dblMaxMen[3 + i]?
  zero : ∀ i, i < 290 → i = 193 ∨ (214 ≤ i ∧ i ≤ 217) ∨ (58 ≤ i ∧ i ≤ 63) ∨ (66 ≤ i ∧ i ≤ 77) →
    p[i]? = some 0

/-! ## The assumed bytes are the ones the assignments use -/

theorem mem_from' {off : Nat} {bs : Bytes} {x : Nat × UInt8} (h : x ∈ from' off bs) :
    ∃ i, i < bs.length ∧ x.1 = off + i ∧ bs[i]? = some x.2 := by
  obtain ⟨i, hi, he⟩ := List.mem_mapIdx.mp h
  exact ⟨i, hi, by rw [← he], by rw [← he, List.getElem?_eq_getElem hi]⟩

/-- A run of known bytes stands in `p` when it does byte by byte. -/
theorem known_of {p : Bytes} {off : Nat} {bs : Bytes} (h : ∀ i, i < bs.length → p[off + i]? = bs[i]?)
    {x : Nat × UInt8} (hx : x ∈ from' off bs) : p[x.1]? = some x.2 := by
  obtain ⟨i, hi, he, hb⟩ := mem_from' hx
  rw [he, h i hi, hb]

theorem zeros_get {n i : Nat} (h : i < (zeros n).length) : (zeros n)[i]? = some 0 := by
  rw [zeros_length] at h
  simp [zeros, h]

theorem Assumed.known {date : UInt32} {p : Bytes} (h : Assumed date p) :
    ∀ x ∈ knownBytes 290 date, p[x.1]? = some x.2 := by
  have hzero : ∀ {off n : Nat}, (∀ i, i < n → p[off + i]? = some 0) →
      ∀ x ∈ from' off (zeros n), p[x.1]? = some x.2 := fun hz x hx =>
    known_of (fun i hi => by rw [zeros_get hi]; exact hz i (by rwa [zeros_length] at hi)) hx
  intro x hx
  simp only [knownBytes, List.mem_append] at hx
  rcases hx with (((((((((hx | hx) | hx) | hx) | hx) | hx) | hx) | hx) | hx) | hx) | hx
  · refine known_of (fun i hi => ?_) hx
    match i, hi with
    | 0, _ => exact h.len.1
    | 1, _ => exact h.len.2
  · refine known_of (fun i hi => ?_) hx
    rw [h.date i hi]
    match i, hi with
    | 0, _ | 1, _ | 2, _ | 3, _ => rfl
  · exact hzero (fun i hi => h.zero _ (by omega) (by omega)) x hx
  · exact known_of (fun i hi => h.dblMax 206 (by decide) i hi) hx
  · exact hzero (fun i hi => h.zero _ (by omega) (by omega)) x hx
  · exact known_of (fun i hi => h.dblMax 218 (by decide) i hi) hx
  · exact known_of (fun i hi => h.dblMax 226 (by decide) i hi) hx
  · refine known_of (fun i hi => ?_) hx
    rw [h.dblMax7 i hi, List.getElem?_take_of_lt (by simpa [dblMaxMen] using hi)]
  · refine known_of (fun i hi => ?_) hx
    rw [h.dblMax5 i hi, List.getElem?_drop]
  · exact hzero (fun i hi => h.zero _ (by omega) (by omega)) x hx
  · exact hzero (fun i hi => h.zero _ (by omega) (by omega)) x hx

theorem from'_offsets (off : Nat) (bs : Bytes) : (from' off bs).map Prod.fst = List.range' off bs.length := by
  apply List.ext_getElem
  · simp [from']
  · intro i h1 h2
    simp [from']

/-- The offsets do not depend on the date. -/
theorem knownBytes_offsets (len : Nat) (date : UInt32) :
    (knownBytes len date).map Prod.fst = List.range' 0 2 ++ List.range' 177 4 ++ List.range' 193 1 ++
      List.range' 206 8 ++ List.range' 214 4 ++ List.range' 218 8 ++ List.range' 226 8 ++
      List.range' 234 7 ++ List.range' 245 5 ++ List.range' 58 6 ++ List.range' 66 12 := by
  simp only [knownBytes, List.map_append, from'_offsets]
  rfl

/-- Every key position is assigned. -/
theorem knownBytes_cover (len : Nat) (date : UInt32) (j : Fin 64) :
    ∃ x ∈ knownBytes len date, Fin.ofNat 64 x.1 = j := by
  have hall : ∀ j : Fin 64, ∃ off ∈ (List.range' 0 2 ++ List.range' 177 4 ++ List.range' 193 1 ++
      List.range' 206 8 ++ List.range' 214 4 ++ List.range' 218 8 ++ List.range' 226 8 ++
      List.range' 234 7 ++ List.range' 245 5 ++ List.range' 58 6 ++ List.range' 66 12 : List Nat),
      Fin.ofNat 64 off = j := by decide
  obtain ⟨off, hoff, hj⟩ := hall j
  rw [← knownBytes_offsets len date] at hoff
  obtain ⟨x, hx, rfl⟩ := List.mem_map.mp hoff
  exact ⟨x, hx, hj⟩

/-! ## Recovery -/

theorem ofBytes_of_get {p : Bytes} {i : Nat} {b : UInt8} (h : p[i]? = some b) : Mem.ofBytes p i = b := by
  simp [Mem.ofBytes, List.getD_eq_getElem?_getD, h]

/-- The key comes out of an encrypted packet that has the assumed bytes. -/
theorem genKey290_eq {date : UInt32} {p : Bytes} (h : Assumed date p) (K mCalcKey : CalcKey) :
    genKey290 mCalcKey (crypt K p) date = K := by
  have hlen : (crypt K p).length = 290 := by rw [crypt_length, h.length]
  unfold genKey290
  rw [hlen]
  have hplain : ∀ x ∈ knownBytes 290 date, Mem.ofBytes p x.1 = x.2 := fun x hx => ofBytes_of_get (h.known x hx)
  refine recover_eq hplain (fun x hx => ?_) mCalcKey (knownBytes_cover 290 date)
  have hp := h.known x hx
  rw [ofBytes_of_get hp]
  apply ofBytes_of_get
  rw [crypt_getElem?, hp, Option.map_some]

/-- **Recovery.** Whatever `m_calc_key` held, it becomes the key, and with it
`decrypt` restores every 366- and 370-byte packet encrypted under that key. -/
theorem genKey290_recovers {date : UInt32} {p : Bytes} (h : Assumed date p) (K mCalcKey : CalcKey) :
    genKey290 mCalcKey (crypt K p) date = K ∧
      ∀ q : Bytes, q.length = 366 ∨ q.length = 370 →
        decrypt (genKey290 mCalcKey (crypt K p) date) (crypt K q) = q := by
  rw [genKey290_eq h K mCalcKey]
  exact ⟨rfl, fun q _ => crypt_crypt K q⟩

/-- A packet with the assumed bytes for a date, and zeroes elsewhere. -/
def sample (date : UInt32) : Bytes :=
  (List.range 290).map fun i => ((knownBytes 290 date).lookup i).getD 0

theorem sample_assumed : Assumed 20260408 (sample 20260408) := by
  constructor <;> decide +kernel

def sampleKey : CalcKey := fun i => UInt8.ofNat (7 * i.val + 3)

theorem genKey290_recovers_sample :
    genKey290 (fun _ => 0) (crypt sampleKey (sample 20260408)) 20260408 = sampleKey :=
  (genKey290_recovers sample_assumed _ _).1

end MdInfoSet.L1.DceKey
