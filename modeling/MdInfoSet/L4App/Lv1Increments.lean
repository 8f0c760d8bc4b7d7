import MdInfoSet.L1Encoding.ZxMessage
import MdInfoSet.L4App.GfexIndex
import MdInfoSet.L4App.Lv1Fields

/-!
# Incremental Level-1 quotes

A Level-1 quote carries the members of the instrument's record that have changed, each as a
field of a tag, a `d_type` and a big-endian value behind a `QuotaBase`
(src/dz_gfex_md/src/dz_gfex_md.h:304-313). `HandleLv1Quota` applies them to the record in
`m_lv1_quota` (src/dz_gfex_md/src/dz_gfex_md.cpp:1398-1467), and only then asks
`IsValidQuota` (cpp:1485-1507).

* `fieldLoop_encode`: on any list of fields the loop leaves the value each tag was sent last.
* `increments_applied`: so does `HandleLv1Quota` in the record of the index it was sent for.
* **Exact condition.** A message the filter rejects leaves the record alone if and only if
  the record holds all it says (`rejected_unchanged_iff`).
-/
namespace MdInfoSet.L4.Lv1Increments

open MdInfoSet.L1.Lv2Quote MdInfoSet.L2.InstMap MdInfoSet.L2.RingBuffer
open MdInfoSet.L4.GfexHandlers MdInfoSet.L4.GfexReceiver MdInfoSet.L4.Lv1Fields
open MdInfoSet.L1.ZxMessage (le16 u16_of_starts)
open MdInfoSet.L4.GfexIndex (lc)
open MdInfoSet.KeyedWrites (IsLast writeAll lastValue_cons)

/-! ## Fields -/

/-- The second column of the table at cpp:1357-1376, in bytes. -/
def width : Tag → Nat
  | .lastPrice | .high | .low | .turnOver | .settle | .tag84 | .tag85 | .bp1 | .ap1 | .avgPrice | .open'
  | .close => 8
  | .lastMatchVol | .volume | .openInterest | .openInterestChg | .bvImp | .bv1 | .av1 | .avImp => 4

/-- A value of the width its tag has. -/
structure Field where
  tag : Tag
  value : BitVec (8 * width tag)

/-- The last `w` bytes of a number, the highest first. -/
def bigEndian : Nat → Nat → Bytes
  | 0, _ => []
  | w + 1, v => UInt8.ofNat (v / 2 ^ (8 * w)) :: bigEndian w v

/-- `type`, `d_type` and the value. -/
def Field.encode (f : Field) : Bytes :=
  [0, 0, 0, f.tag.byte, 0, UInt8.ofNat (width f.tag)] ++ bigEndian (width f.tag) f.value.toNat

/-- The value as a `double` and as a `uint32_t`. -/
def Field.price (f : Field) : Float := Float.ofBits (UInt64.ofNat f.value.toNat)
def Field.count (f : Field) : UInt32 := UInt32.ofNat f.value.toNat

def encodeFields (fields : List Field) : Bytes := fields.flatMap Field.encode

@[simp] theorem bigEndian_length (w v : Nat) : (bigEndian w v).length = w := by
  induction w with
  | zero => rfl
  | succ w ih => simp [bigEndian, ih]

@[simp] theorem Field.length_encode (f : Field) : f.encode.length = quotaHeadSize + width f.tag := by
  simp only [Field.encode, List.length_append, List.length_cons, List.length_nil, bigEndian_length, quotaHeadSize]

@[simp] theorem encodeFields_nil : encodeFields [] = [] := rfl

@[simp] theorem encodeFields_cons (f : Field) (fields : List Field) :
    encodeFields (f :: fields) = f.encode ++ encodeFields fields :=
  List.flatMap_cons

/-! ## What was sent last -/

def lastSent (fields : List Field) (tag : Tag) : Option Field := fields.reverse.find? (·.tag = tag)

/-- The last value sent for a tag, or the old one. -/
def sent {α : Type} (read : Field → α) (fields : List Field) (tag : Tag) (old : α) : α :=
  ((lastSent fields tag).map read).getD old

/-- The record with each handled tag's member replaced by the last value sent for the tag. -/
def applied (quota : Quota) (fields : List Field) : Quota :=
  { quota with
    lastPrice := sent Field.price fields .lastPrice quota.lastPrice
    high := sent Field.price fields .high quota.high
    low := sent Field.price fields .low quota.low
    volume := sent Field.count fields .volume quota.volume
    turnOver := sent Field.price fields .turnOver quota.turnOver
    openinterest := sent (fun f => f.count.toInt32) fields .openInterest quota.openinterest
    settle := sent Field.price fields .settle quota.settle
    open' := sent Field.price fields .open' quota.open'
    close := sent Field.price fields .close quota.close
    bp := Function.update quota.bp 0 (sent Field.price fields .bp1 (quota.bp 0))
    bv := Function.update quota.bv 0 (sent Field.count fields .bv1 (quota.bv 0))
    ap := Function.update quota.ap 0 (sent Field.price fields .ap1 (quota.ap 0))
    av := Function.update quota.av 0 (sent Field.count fields .av1 (quota.av 0)) }

section Sent

variable {α : Type} (read : Field → α) (tag : Tag) (old : α)

@[simp] theorem sent_nil : sent read [] tag old = old := rfl

@[simp] theorem sent_cons (f : Field) (fields : List Field) :
    sent read (f :: fields) tag old = sent read fields tag (if f.tag = tag then read f else old) := by
  have hcons := @lastValue_cons Field α (·.tag = tag) read fields old f
  simp only [decide_eq_true_eq] at hcons
  exact hcons

end Sent

@[simp] theorem applied_nil (quota : Quota) : applied quota [] = quota := by
  simp [applied]

/-- The first field is written, then the others are. -/
theorem applied_cons (quota : Quota) (f : Field) (fields : List Field) :
    applied quota (f :: fields) = applied (f.tag.set quota f.price f.count) fields := by
  obtain ⟨tag, value⟩ := f
  cases tag <;> simp [applied, Tag.set]

/-! ## Reading a field -/

section Read

variable {data : Mem} {off v : Nat}

theorem reverseU32_bigEndian (h : (data.shift off).Starts (bigEndian 4 v)) :
    reverseU32 data off = UInt32.ofNat v := by
  have h0 := h 0 (by simp)
  have h1 := h 1 (by simp)
  have h2 := h 2 (by simp)
  have h3 := h 3 (by simp)
  simp only [Mem.shift, bigEndian, List.getElem_cons_zero, List.getElem_cons_succ, Nat.add_zero] at h0 h1 h2 h3
  apply UInt32.toNat_inj.mp
  rw [reverseU32, h0, h1, h2, h3]
  simp only [UInt8.toNat_ofNat', UInt32.toNat_ofNat']
  omega

theorem bigEndian_add (w n v : Nat) : bigEndian (w + n) v = bigEndian w (v / 2 ^ (8 * n)) ++ bigEndian n v := by
  induction w with
  | zero => simp [bigEndian]
  | succ w ih =>
    rw [Nat.succ_add, bigEndian, bigEndian, ih, List.cons_append, Nat.div_div_eq_div_mul, ← Nat.pow_add,
      Nat.mul_add, Nat.add_comm (8 * n)]

theorem reverseDouble_bigEndian (h : (data.shift off).Starts (bigEndian 8 v)) :
    reverseDouble data off = Float.ofBits (UInt64.ofNat v) := by
  rw [bigEndian_add 4 4] at h
  have hhigh := reverseU32_bigEndian h.left
  have hlow := h.right
  rw [bigEndian_length, Mem.shift_shift] at hlow
  rw [reverseDouble, hhigh, reverseU32_bigEndian hlow]
  congr 1
  have hpow : ((2 : UInt64) ^ 32).toNat = 2 ^ 32 := rfl
  apply UInt64.toNat_inj.mp
  rw [UInt64.toNat_add, UInt64.toNat_mul, hpow]
  simp only [UInt32.toNat_toUInt64, UInt32.toNat_ofNat', UInt64.toNat_ofNat']
  omega

/-- A tag with a member reads its value in one of the two ways. -/
theorem set_width (tag : Tag) (quota : Quota) :
    (width tag = 8 ∧ ∀ x v v', tag.set quota x v = tag.set quota x v') ∨
      (width tag = 4 ∧ ∀ x x' v, tag.set quota x v = tag.set quota x' v) := by
  cases tag <;> simp [width, Tag.set]

theorem set_read {f : Field} (h : (data.shift off).Starts (bigEndian (width f.tag) f.value.toNat))
    (quota : Quota) :
    f.tag.set quota (reverseDouble data off) (reverseU32 data off) = f.tag.set quota f.price f.count := by
  rw [Field.price, Field.count]
  generalize f.value.toNat = v at h ⊢
  rcases set_width f.tag quota with ⟨hw, hset⟩ | ⟨hw, hset⟩
  · rw [hw] at h
    rw [reverseDouble_bigEndian h]
    exact hset _ _ _
  · rw [hw] at h
    rw [reverseU32_bigEndian h]
    exact hset _ _ _

/-- The head of a field, as the loop reads it. -/
theorem read_head {f : Field} {ptr : Nat} (h : (data.shift ptr).Starts f.encode) :
    data.u32 ptr = f.tag.type ∧ HasWidth data ptr (quotaHeadSize + width f.tag) := by
  have hhead := h.left
  have h0 := hhead 0 (by simp)
  have h1 := hhead 1 (by simp)
  have h2 := hhead 2 (by simp)
  have h3 := hhead 3 (by simp)
  have h4 := hhead 4 (by simp)
  have h5 := hhead 5 (by simp)
  simp only [Mem.shift, List.getElem_cons_zero, List.getElem_cons_succ, Nat.add_zero] at h0 h1 h2 h3 h4 h5
  refine ⟨?_, ?_⟩
  · simp only [Mem.u32, Mem.u16, Nat.add_assoc, Nat.reduceAdd, h0, h1, h2, h3, Tag.type, UInt8.toNat_zero]
    omega
  · rw [HasWidth, Mem.u16, h4, Nat.add_assoc, h5]
    rcases set_width f.tag .init with ⟨hw, -⟩ | ⟨hw, -⟩
    · simp [hw]
    · simp [hw]

end Read

/-- The loop reads back what was encoded. -/
theorem fieldLoop_encode {data : Mem} {fields : List Field} (quota : Quota) {ptr : Nat}
    (h : (data.shift ptr).Starts (encodeFields fields)) :
    fieldLoop data quota ptr (encodeFields fields).length = some (applied quota fields) := by
  induction fields generalizing quota ptr with
  | nil => rw [fieldLoop_end (by simp), applied_nil]
  | cons f fields ih =>
    rw [encodeFields_cons] at h ⊢
    obtain ⟨htype, hwidth⟩ := read_head h.left
    have hvalue : (data.shift (ptr + quotaHeadSize)).Starts (bigEndian (width f.tag) f.value.toNat) := by
      rw [← Mem.shift_shift]
      exact h.left.right
    have hrest := h.right
    rw [Mem.shift_shift, Field.length_encode] at hrest
    have hlen : ((f.encode ++ encodeFields fields).length : Int) - (quotaHeadSize + width f.tag : Nat) =
        (encodeFields fields).length := by
      rw [List.length_append, Field.length_encode]
      omega
    have hpos : 0 < ((f.encode ++ encodeFields fields).length : Int) := by
      rw [List.length_append, Field.length_encode, quotaHeadSize]
      omega
    rw [fieldLoop_cons hpos hwidth, htype, setField_tag, set_read hvalue, hlen, ih _ hrest, applied_cons]

/-! ## Messages -/

/-- mirrors src/dz_gfex_md/src/dz_gfex_md.h:304-308 -/
structure QuotaBase where
  mark : Vector UInt8 8
  idx : UInt16
  extime : Vector UInt8 12

def QuotaBase.encode (base : QuotaBase) : Bytes :=
  base.mark.toList ++ (le16 base.idx.toNat ++ base.extime.toList)

/-- A quote: the head, and its fields. -/
def message (base : QuotaBase) (fields : List Field) : Bytes := base.encode ++ encodeFields fields

/-- The time of a head, whose string ends at its zero or at the first zero behind it. -/
def QuotaBase.utc (base : QuotaBase) : Option UInt64 := timeStrToUtcS (base.extime.toList ++ [0])

@[simp] theorem QuotaBase.length_encode (base : QuotaBase) : base.encode.length = quotaBaseSize := by
  simp [QuotaBase.encode, le16, quotaBaseSize]

@[simp] theorem length_message (base : QuotaBase) (fields : List Field) :
    (message base fields).length = quotaBaseSize + (encodeFields fields).length := by
  simp [message]

/-- A field begins with a zero. -/
theorem encodeFields_zero {fields : List Field} (h : fields ≠ []) : ∃ rest, encodeFields fields = 0 :: rest := by
  cases fields with
  | nil => exact absurd rfl h
  | cons f fields => exact ⟨_, rfl⟩

/-- The time of a message is that of its head. -/
theorem timeStrToUtcS_message {base : QuotaBase} {fields : List Field}
    (h : 0 ∈ base.extime.toList ∨ fields ≠ []) :
    timeStrToUtcS (base.extime.toList ++ encodeFields fields) = base.utc := by
  have hstr : cstr (base.extime.toList ++ encodeFields fields) = cstr (base.extime.toList ++ [0]) := by
    rcases h with h | h
    · rw [cstr_append (cstr_isSome h), cstr_append (cstr_isSome h)]
    · obtain ⟨rest, hrest⟩ := encodeFields_zero h
      rw [hrest, List.append_cons, cstr_append (cstr_isSome (by simp))]
  rw [QuotaBase.utc, timeStrToUtcS, timeStrToUtcS, hstr]

section Message

variable {base : QuotaBase} {fields : List Field} {data : Mem}

/-- Where the parts of a message are. -/
theorem message_parts (h : data.Starts (message base fields)) :
    data.u16 8 = base.idx.toNat ∧
      data.slice 10 ((message base fields).length - 10) = base.extime.toList ++ encodeFields fields ∧
      (data.shift quotaBaseSize).Starts (encodeFields fields) := by
  have hbody := h.right
  rw [QuotaBase.length_encode] at hbody
  have hidx := h.left.right
  rw [Vector.length_toList] at hidx
  refine ⟨u16_of_starts base.idx.toNat_lt hidx, ?_, hbody⟩
  have hextime := hidx.right.slice_zero
  rw [Mem.shift_shift, Mem.slice_shift, Vector.length_toList] at hextime
  rw [length_message, show quotaBaseSize + (encodeFields fields).length - 10 =
    12 + (encodeFields fields).length by rw [quotaBaseSize]; omega, Mem.slice_add]
  congr 1
  rw [← Mem.slice_shift]
  exact hbody.slice_zero

/-- The record after a message of less than 2 GiB. -/
theorem lv1Quota_message {t : UInt64} (hdata : data.Starts (message base fields))
    (hlen : (encodeFields fields).length < 2 ^ 31) (ht : base.utc = some t)
    (hends : 0 ∈ base.extime.toList ∨ fields ≠ []) (quota : Quota) (code : Bytes) :
    GfexHandlers.lv1Quota quota code data (message base fields).length =
      some (applied { quota with code := strncpy quota.code code, extime := t } fields) := by
  obtain ⟨-, htime, hbody⟩ := message_parts hdata
  have hremain : Int.bmod ((message base fields).length - quotaBaseSize) (2 ^ 32) =
      (encodeFields fields).length := by
    rw [length_message, Int.bmod_eq_of_le (by omega) (by omega)]
    omega
  rw [GfexHandlers.lv1Quota, htime, timeStrToUtcS_message hends, ht, Option.bind_some, hremain,
    fieldLoop_encode _ hbody]

/-- A message of 2 GiB to 4 GiB is taken for one without fields. -/
theorem lv1Quota_long {t : UInt64} (hdata : data.Starts (message base fields))
    (hlo : 2 ^ 31 ≤ (encodeFields fields).length) (hhi : (encodeFields fields).length < 2 ^ 32)
    (ht : base.utc = some t) (hends : 0 ∈ base.extime.toList ∨ fields ≠ []) (quota : Quota) (code : Bytes) :
    GfexHandlers.lv1Quota quota code data (message base fields).length =
      some { quota with code := strncpy quota.code code, extime := t } := by
  obtain ⟨-, htime, -⟩ := message_parts hdata
  have hremain : Int.bmod ((message base fields).length - quotaBaseSize) (2 ^ 32) ≤ 0 := by
    rw [length_message, Int.bmod_def]
    omega
  rw [GfexHandlers.lv1Quota, htime, timeStrToUtcS_message hends, ht, Option.bind_some, fieldLoop_end hremain]

/-- What `HandleLv1Quota` leaves in the record of the code the index is mapped to, once the
message can be read. -/
theorem handleLv1Quota_quota {mgr : GfexQuota} {dataLen i : Nat} {code : Bytes} {quota quota' : Quota}
    (hcode : quoteCode mgr data = some code) (hi : find mgr.mLv1Quota.data code = some i)
    (hquota : valueAt mgr.mLv1Quota.data i = some quota)
    (hread : GfexHandlers.lv1Quota quota code data dataLen = some quota') (t0 t1 : UInt64) :
    ∃ mgr', GfexReceiver.handleLv1Quota mgr t0 data dataLen t1 = some mgr' ∧
      valueAt mgr'.mLv1Quota.data i = some quota' := by
  obtain ⟨mgr', hstep, hmap⟩ := updateQuote_quota hi hquota hread t0 t1
  refine ⟨mgr', ?_, ?_⟩
  · rw [GfexReceiver.handleLv1Quota, hcode]
    exact hstep
  · rw [hmap, Sorted.valueAt_modify_self, hquota, Option.map_some]

end Message

/-- The message is encoded for an index that is mapped, `quota` is the record of its code,
and the time can be read as `t`. -/
structure EncodedFor (mgr : GfexQuota) (base : QuotaBase) (fields : List Field) (data : Mem) (code : Bytes)
    (i : Nat) (quota : Quota) (t : UInt64) : Prop where
  mapped : mgr.mLv1CodeMap.lookup (UInt32.ofNat base.idx.toNat) = some code
  found : find mgr.mLv1Quota.data code = some i
  entry : valueAt mgr.mLv1Quota.data i = some quota
  starts : data.Starts (message base fields)
  time : base.utc = some t
  ends : 0 ∈ base.extime.toList ∨ fields ≠ []

theorem EncodedFor.quoteCode {mgr : GfexQuota} {base : QuotaBase} {fields : List Field} {data : Mem} {code : Bytes}
    {i : Nat} {quota : Quota} {t : UInt64} (h : EncodedFor mgr base fields data code i quota t) :
    quoteCode mgr data = some code := by
  rw [GfexReceiver.quoteCode, (message_parts h.starts).1]
  exact h.mapped

/-! ## A receiver of one instrument -/

/-- The head of a quote of 09:00 and `s` seconds for index 7. -/
def sampleBase (s : UInt8) : QuotaBase where
  mark := Vector.replicate 8 0
  idx := 7
  extime := #v[0x30, 0x39, 0x3a, 0x30, 0x30, 0x3a, 0x30, 0x30 + s, 0, 0, 0, 0]

/-- A volume of 7. -/
def sampleVolume : Field := ⟨.volume, 7⟩

/-- Index 7 is `lc`, whose record is as `InitOnce` leaves it. -/
def sampleReceiver : GfexQuota :=
  { GfexQuota.start with
    mLv1CodeIndexSet := [7]
    mLv1CodeMap := [(7, lc)]
    mLv1Quota := ⟨[(charsToUint128 lc, .init)], List.pairwise_singleton _ _⟩ }

theorem sampleBase_utc : (sampleBase 0).utc = some 32400000 ∧ (sampleBase 1).utc = some 32401000 := by
  decide +kernel

theorem sampleBase_ends (s : UInt8) (fields : List Field) : 0 ∈ (sampleBase s).extime.toList ∨ fields ≠ [] := by
  simp [sampleBase]

theorem sample_encodedFor (fields : List Field) :
    EncodedFor sampleReceiver (sampleBase 0) fields (Mem.ofBytes (message (sampleBase 0) fields)) lc 0 .init
      32400000 where
  mapped := rfl
  found := find_singleton rfl
  entry := rfl
  starts := Mem.starts_ofBytes _
  time := sampleBase_utc.1
  ends := sampleBase_ends 0 fields

/-! ## Increments -/

/-- For every list of fields: the record has its code and the time set, the last value sent
for each handled tag, and is otherwise as it was. -/
theorem increments_applied {mgr : GfexQuota} {base : QuotaBase} {fields : List Field} {data : Mem} {code : Bytes}
    {i : Nat} {quota : Quota} {t : UInt64} (h : EncodedFor mgr base fields data code i quota t)
    (hlen : (encodeFields fields).length < 2 ^ 31) (t0 t1 : UInt64) :
    ∃ mgr', GfexReceiver.handleLv1Quota mgr t0 data (message base fields).length t1 = some mgr' ∧
      valueAt mgr'.mLv1Quota.data i =
        some (applied { quota with code := strncpy quota.code code, extime := t } fields) :=
  handleLv1Quota_quota h.quoteCode h.found h.entry (lv1Quota_message h.starts hlen h.time h.ends quota code) t0 t1

/-- A volume sent twice. -/
theorem increments_applied_twice : ∃ mgr',
    GfexReceiver.handleLv1Quota sampleReceiver 0
      (Mem.ofBytes (message (sampleBase 0) [sampleVolume, ⟨.volume, 8⟩])) 42 0 = some mgr' ∧
      valueAt mgr'.mLv1Quota.data 0 = some { Quota.init with code := lc, extime := 32400000, volume := 8 } := by
  obtain ⟨mgr', hstep, hquota⟩ :=
    increments_applied (sample_encodedFor [sampleVolume, ⟨.volume, 8⟩]) (by decide) 0 0
  refine ⟨mgr', hstep, ?_⟩
  rw [hquota, applied_cons, applied_cons, applied_nil]
  rfl

theorem length_encodeFields_replicate (n : Nat) (f : Field) :
    (encodeFields (List.replicate n f)).length = n * (quotaHeadSize + width f.tag) := by
  induction n with
  | zero => simp
  | succ n ih =>
    rw [List.replicate_succ, encodeFields_cons, List.length_append, ih, Field.length_encode, Nat.succ_mul,
      Nat.add_comm]

theorem applied_replicate {n : Nat} (h : 0 < n) (quota : Quota) (f : Field) :
    (applied quota (List.replicate n f)).volume = (applied quota [f]).volume := by
  simp [applied, sent, lastSent, List.find?_replicate_of_length_pos h]

/-- **Counterexample.** The code is set too; and 2 GiB of fields are not applied. -/
theorem code_set_long_ignored :
    (¬ ∀ (mgr : GfexQuota) (base : QuotaBase) (fields : List Field) (data : Mem) (code : Bytes) (i : Nat)
        (quota : Quota) (t : UInt64), EncodedFor mgr base fields data code i quota t →
      (encodeFields fields).length < 2 ^ 31 →
      ∃ mgr', GfexReceiver.handleLv1Quota mgr 0 data (message base fields).length 0 = some mgr' ∧
        valueAt mgr'.mLv1Quota.data i = some (applied { quota with extime := t } fields)) ∧
    ¬ ∀ (mgr : GfexQuota) (base : QuotaBase) (fields : List Field) (data : Mem) (code : Bytes) (i : Nat)
        (quota : Quota) (t : UInt64), EncodedFor mgr base fields data code i quota t →
      ∃ mgr', GfexReceiver.handleLv1Quota mgr 0 data (message base fields).length 0 = some mgr' ∧
        valueAt mgr'.mLv1Quota.data i =
          some (applied { quota with code := strncpy quota.code code, extime := t } fields) := by
  refine ⟨fun h => ?_, fun h => ?_⟩
  · have henc := sample_encodedFor [sampleVolume]
    have hlen : (encodeFields [sampleVolume]).length < 2 ^ 31 := by decide
    obtain ⟨mgr1, hstep, hquota⟩ := h _ _ _ _ _ _ _ _ henc hlen
    obtain ⟨mgr2, hstep', hquota'⟩ := handleLv1Quota_quota henc.quoteCode henc.found henc.entry
      (lv1Quota_message henc.starts hlen henc.time henc.ends .init lc) 0 0
    obtain rfl := Option.some.inj (hstep.symm.trans hstep')
    have hcode := congrArg Quota.code (Option.some.inj (hquota.symm.trans hquota'))
    exact absurd hcode (by decide)
  · have henc := sample_encodedFor (List.replicate (2 ^ 28) sampleVolume)
    have hlen := length_encodeFields_replicate (2 ^ 28) sampleVolume
    rw [show quotaHeadSize + width sampleVolume.tag = 10 from rfl] at hlen
    obtain ⟨mgr1, hstep, hquota⟩ := h _ _ _ _ _ _ _ _ henc
    obtain ⟨mgr2, hstep', hquota'⟩ := handleLv1Quota_quota henc.quoteCode henc.found henc.entry
      (lv1Quota_long henc.starts (by omega) (by omega) henc.time henc.ends .init lc) 0 0
    obtain rfl := Option.some.inj (hstep.symm.trans hstep')
    have hvolume := congrArg Quota.volume (Option.some.inj (hquota.symm.trans hquota'))
    rw [applied_replicate (by decide)] at hvolume
    exact absurd hvolume (by decide)

/-! ## Rejected messages -/

/-- The record has all that a message says: its code, its time, and the last value of each
field. -/
structure Repeats (quota : Quota) (code : Bytes) (data : Mem) (dataLen : Nat) : Prop where
  code : strncpy quota.code code = quota.code
  extime : timeStrToUtcS (data.slice 10 (dataLen - 10)) = some quota.extime
  fields : ∃ fields, fieldsAt data quotaBaseSize (Int.bmod (dataLen - quotaBaseSize) (2 ^ 32)) = some fields ∧
    ∀ (tag : Tag) (off : Nat), IsLast (tag.type, off) fields →
      tag.Holds quota (reverseDouble data off) (reverseU32 data off)

/-- A field that is the last of its tag changes nothing if the record has its value. -/
theorem writes_eq_self_iff {data : Mem} {quota : Quota} {fields : List (Nat × Nat)} :
    writeAll (writeField data) quota fields = quota ↔
      ∀ (tag : Tag) (off : Nat), IsLast (tag.type, off) fields →
        tag.Holds quota (reverseDouble data off) (reverseU32 data off) := by
  rw [(keyed_writeField data).writeAll_eq_self_iff]
  constructor
  · intro h tag off hlast
    have hone := h _ hlast
    rwa [writeField, setField_tag, Tag.set_eq_self_iff] at hone
  · rintro h ⟨type, off⟩ hlast
    rcases type_cases type with ⟨tag, rfl⟩ | hother
    · rw [writeField, setField_tag, Tag.set_eq_self_iff]
      exact h tag off hlast
    · rw [writeField, setField_other hother]

/-- A message that is read leaves the record alone if and only if it repeats it. -/
theorem lv1Quota_eq_self_iff {quota : Quota} {code : Bytes} {data : Mem} {dataLen : Nat} :
    GfexHandlers.lv1Quota quota code data dataLen = some quota ↔ Repeats quota code data dataLen := by
  constructor
  · intro h
    obtain ⟨t, ht, hloop⟩ := Option.bind_eq_some_iff.mp h
    rw [fieldLoop_eq] at hloop
    obtain ⟨fields, hfields, hwrite⟩ := Option.map_eq_some_iff.mp hloop
    obtain ⟨hcode, hextime⟩ :=
      writeAll_rest data { quota with code := strncpy quota.code code, extime := t } fields
    rw [hwrite] at hcode hextime
    dsimp only at hcode hextime
    subst hextime
    rw [← hcode] at hwrite
    exact ⟨hcode.symm, ht, fields, hfields, writes_eq_self_iff.mp hwrite⟩
  · intro ⟨hcode, htime, fields, hfields, hlast⟩
    rw [GfexHandlers.lv1Quota, htime, Option.bind_some, hcode, fieldLoop_eq, hfields, Option.map_some]
    exact congrArg some (writes_eq_self_iff.mpr hlast)

/-- A message that is read is handled. -/
theorem handled {e : Entry} {code : Bytes} {data : Mem} {dataLen : Nat} {quota : Quota}
    (hread : GfexHandlers.lv1Quota e.lv1Quota code data dataLen = some quota) (t0 t1 : UInt64) :
    ∃ e', GfexHandlers.handleLv1Quota e code t0 data dataLen t1 = some e' ∧ e'.lv1Quota = quota ∧
      if (validLv1 e.cache quota).1 = .ok then
        e'.cache.level = 1 ∧ e'.pushed = e.pushed ++ [slotL1 quota t0 t1]
      else e'.cache = e.cache ∧ e'.pushed = e.pushed := by
  obtain ⟨e', hstep⟩ : ∃ e', GfexHandlers.handleLv1Quota e code t0 data dataLen t1 = some e' := by
    rw [GfexHandlers.handleLv1Quota, hread]
    exact ⟨_, rfl⟩
  obtain ⟨quota', hread', hrest⟩ := handleLv1Quota_spec hstep
  obtain rfl := Option.some.inj (hread.symm.trans hread')
  exact ⟨e', hstep, hrest⟩

/-- **Exact condition.** A message that `IsValidQuota` rejects for its time or its volume
leaves the record and the entry of the filter as they were if and only if the record has all
that it says. -/
theorem rejected_unchanged_iff {e : Entry} {code : Bytes} {data : Mem} {dataLen : Nat} {quota : Quota}
    (hread : GfexHandlers.lv1Quota e.lv1Quota code data dataLen = some quota)
    (hrej : (validLv1 e.cache quota).1 = .timeError ∨ (validLv1 e.cache quota).1 = .volError) (t0 t1 : UInt64) :
    ∃ e', GfexHandlers.handleLv1Quota e code t0 data dataLen t1 = some e' ∧
      ((e'.lv1Quota = e.lv1Quota ∧ e'.cache = e.cache) ↔ Repeats e.lv1Quota code data dataLen) := by
  obtain ⟨e', hstep, hquota, hcache⟩ := handled hread t0 t1
  refine ⟨e', hstep, ?_⟩
  have hne : (validLv1 e.cache quota).1 ≠ .ok := by
    rcases hrej with h | h
    · rw [h]
      nofun
    · rw [h]
      nofun
  rw [if_neg hne] at hcache
  rw [and_iff_left hcache.1, hquota, ← lv1Quota_eq_self_iff, hread, Option.some.injEq]

/-- The filter's entry is of 09:00:01, the record of 09:00:00. -/
def sampleEntry : Entry :=
  { Entry.start with
    cache := ⟨32401000, 0, 0, 0, 0, 0, 5⟩
    lv1Quota := { Quota.init with code := lc, extime := 32400000 } }

/-- With a volume in the record. -/
def volumeEntry : Entry :=
  { sampleEntry with lv1Quota := { sampleEntry.lv1Quota with volume := 7 } }

/-- A message that repeats the time and the volume of the record. -/
theorem rejected_unchanged_iff_volume :
    ∃ e', GfexHandlers.handleLv1Quota volumeEntry lc 0 (Mem.ofBytes (message (sampleBase 0) [sampleVolume])) 32 0 =
        some e' ∧ e'.lv1Quota = volumeEntry.lv1Quota ∧ e'.cache = volumeEntry.cache := by
  have hread := lv1Quota_message (Mem.starts_ofBytes (message (sampleBase 0) [sampleVolume])) (by decide)
    sampleBase_utc.1 (sampleBase_ends 0 _) volumeEntry.lv1Quota lc
  have hrepeat := hread
  rw [applied_cons, applied_nil] at hrepeat
  obtain ⟨e', hstep, hiff⟩ := rejected_unchanged_iff hread (.inl (by decide +kernel)) 0 0
  exact ⟨e', hstep, hiff.mpr (lv1Quota_eq_self_iff.mp hrepeat)⟩

/-- **Counterexample.** The volume of a rejected message stays in the record, and the next
message, which has none, is published with it. -/
theorem rejected_volume_published :
    (¬ ∀ (e e' : Entry) (code : Bytes) (data : Mem) (dataLen : Nat),
      GfexHandlers.handleLv1Quota e code 0 data dataLen 0 = some e' →
      (validLv1 e.cache e'.lv1Quota).1 = .timeError ∨ (validLv1 e.cache e'.lv1Quota).1 = .volError →
      e'.lv1Quota = e.lv1Quota ∧ e'.cache = e.cache) ∧
    ¬ ∀ (e e' f f' : Entry) (code : Bytes) (data later : Mem) (dataLen laterLen : Nat),
      GfexHandlers.handleLv1Quota e code 0 data dataLen 0 = some e' →
      (validLv1 e.cache e'.lv1Quota).1 = .timeError ∨ (validLv1 e.cache e'.lv1Quota).1 = .volError →
      GfexHandlers.handleLv1Quota e code 0 later laterLen 0 = some f →
      GfexHandlers.handleLv1Quota e' code 0 later laterLen 0 = some f' → f'.pushed = f.pushed := by
  have hread : ∀ quota, GfexHandlers.lv1Quota quota lc (Mem.ofBytes (message (sampleBase 0) [sampleVolume])) 32 =
      some (applied { quota with code := strncpy quota.code lc, extime := 32400000 } [sampleVolume]) :=
    fun quota => lv1Quota_message (Mem.starts_ofBytes (message (sampleBase 0) [sampleVolume])) (by decide)
      sampleBase_utc.1 (sampleBase_ends 0 _) quota lc
  have hlater : ∀ quota, GfexHandlers.lv1Quota quota lc (Mem.ofBytes (message (sampleBase 1) [])) 22 =
      some (applied { quota with code := strncpy quota.code lc, extime := 32401000 } []) :=
    fun quota => lv1Quota_message (Mem.starts_ofBytes (message (sampleBase 1) [])) (by decide) sampleBase_utc.2
      (sampleBase_ends 1 _) quota lc
  obtain ⟨e', hstep, hquota, hrest⟩ := handled (hread sampleEntry.lv1Quota) 0 0
  rw [if_neg (by decide +kernel)] at hrest
  have hrej : (validLv1 sampleEntry.cache e'.lv1Quota).1 = .timeError := by
    rw [hquota]
    decide +kernel
  refine ⟨fun h => ?_, fun h => ?_⟩
  · have hsame := congrArg Quota.volume (h _ _ _ _ _ hstep (.inl hrej)).1
    rw [hquota] at hsame
    exact absurd hsame (by decide)
  · obtain ⟨f, hf, -, hpushed⟩ := handled (hlater sampleEntry.lv1Quota) 0 0
    rw [if_pos (by decide +kernel)] at hpushed
    obtain ⟨f', hf', -, hpushed'⟩ := handled (hlater e'.lv1Quota) 0 0
    rw [hquota, hrest.1, hrest.2, if_pos (by decide +kernel)] at hpushed'
    have hslots := h _ _ _ _ _ _ _ _ _ hstep (.inl hrej) hf hf'
    rw [hpushed.2, hpushed'.2] at hslots
    have hvolume := congrArg (fun slots : List Slot => slots.map fun slot => slot.data.volume) hslots
    exact absurd hvolume (by decide)

end MdInfoSet.L4.Lv1Increments
