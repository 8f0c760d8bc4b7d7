import MdInfoSet.L2Machine.Lv2Rounds

/-!
# Product messages on the Level-2 stream

`GetCurReadMsgLength` (src/dz_gfex_md/src/dz_gfex_md.cpp:415-451) declares five product
messages of 200 bytes, named by their first two letters:

    std::string product({data,data+1});

is a string of one letter, so none of the five names is ever found and the length of such
a message is 0, which ends the loop of `Lv2Handler`.

**Exact condition.** What follows a product message in its segment is handed on if and
only if nothing follows it (`following_handed_iff`).
-/
namespace MdInfoSet.L3.Lv2Products

open MdInfoSet.L1.Lv2Frame MdInfoSet.L2.Lv2Handler MdInfoSet.L2.Lv2Rounds
open MdInfoSet.WhileLoop (Visits)

/-- The names `GetCurReadMsgLength` compares with: `lc`, `si`, `pd`, `ps` and `pt`. -/
def products : List Bytes := [[0x6c, 0x63], [0x73, 0x69], [0x70, 0x64], [0x70, 0x73], [0x70, 0x74]]

structure IsProduct (p : Bytes) : Prop where
  length : p.length = 200
  letters : p.take 2 ∈ products

/-- The call with `inputdata` hands the `n` bytes at `off` to `OnData_lv2`. -/
def HandsOn (config : NetConfig) (g : HalfPacket) (inputdata : Seg) (net : NetConfig) (off n : Nat) : Prop :=
  config.Accepts net ∧
    ∃ s, Visits (lv2Round inputdata.mem) (.enter g inputdata) s ∧ s.off = off ∧ s.half.halfSize = 0 ∧
      6 < s.dataLen ∧ getCurReadMsgLength (inputdata.mem.shift off) = n ∧ 0 < n ∧ n ≤ s.dataLen

/-- What is handed on is among the messages of the call. -/
theorem HandsOn.mem {config net : NetConfig} {g : HalfPacket} {inputdata : Seg} {off n : Nat}
    (h : HandsOn config g inputdata net off n) :
    inputdata.mem.slice off n ∈ (lv2Handler config g inputdata net).1 := by
  obtain ⟨hnet, s, hvisit, rfl, hg, h6, hlen, hpos, hle⟩ := h
  obtain ⟨r, hr⟩ : ∃ r, r = lv2Handler config g inputdata net := ⟨_, rfl⟩
  have hends : WhileLoop.Ends (lv2Round inputdata.mem) (.enter g inputdata) r := by
    rw [lv2Loop_ends, hr, lv2Handler, if_pos hnet]
    simp [LoopState.enter]
  rw [WhileLoop.ends_of_visits hvisit, WhileLoop.ends_next (lv2Round_whole h6 hg hlen hpos hle), lv2Loop_ends]
    at hends
  rw [← hr, hends]
  simp

/-- Where the messages `ms` stand, behind `off` bytes. -/
def places : Nat → List Bytes → List (Nat × Nat)
  | _, [] => []
  | off, m :: ms => (off, m.length) :: places (off + m.length) ms

/-! ## The length of a product message -/

/-- It is 0, or that of an order book, if its bytes 4 to 7 say so. -/
theorem IsProduct.msgLength {p : Bytes} (hp : IsProduct p) {d : Mem} (hd : d.Starts p) :
    getCurReadMsgLength d = if d.i32 4 = lv2ObQuoteLen then lv2ObQuoteLen else 0 := by
  have hfirst : p.take 2 = [d 0, d 1] := by
    have h := (hd.take 2).slice_zero
    rw [List.length_take, hp.length] at h
    simpa [Mem.slice, List.range_succ] using h.symm
  have hletters := hp.letters
  rw [hfirst] at hletters
  simp only [products, List.mem_cons, List.cons.injEq, and_true, List.not_mem_nil, or_false] at hletters
  unfold getCurReadMsgLength
  rcases hletters with h | h | h | h | h <;> simp [h.1]

/-- A round only moves on. -/
theorem lv2Round_off_le {data : Mem} {s s' : LoopState} (h : lv2Round data s = .next s') : s.off ≤ s'.off := by
  unfold lv2Round at h
  dsimp only at h
  split at h
  · split at h
    · split at h
      · split at h
        · cases h
          exact Nat.le_add_right _ _
        · cases h
      · cases h
    · split at h
      · cases h
        exact Nat.le_refl _
      · cases h
        exact Nat.le_add_right _ _
  · cases h

theorem visits_off_le {data : Mem} {s t : LoopState} (h : Visits (lv2Round data) s t) : s.off ≤ t.off := by
  induction h with
  | here => exact Nat.le_refl _
  | next hn _ ih => exact Nat.le_trans (lv2Round_off_le hn) ih

/-- Without a half packet the loop leaves, or goes on behind the message in front. -/
theorem visits_behind {data : Mem} {s t : LoopState} {n : Nat} (h6 : 6 < s.dataLen) (hg : s.half.halfSize = 0)
    (hlen : getCurReadMsgLength (data.shift s.off) = n) (h : Visits (lv2Round data) s t) :
    t = s ∨ 0 < n ∧ s.off + n ≤ t.off := by
  cases h with
  | here => exact .inl rfl
  | next hn hrest =>
    rcases Nat.eq_zero_or_pos n with rfl | hpos
    · rw [lv2Round_unknown h6 hg hlen] at hn
      cases hn
    · by_cases hle : n ≤ s.dataLen
      · rw [lv2Round_whole h6 hg hlen hpos hle] at hn
        cases hn
        exact .inr ⟨hpos, visits_off_le hrest⟩
      · rw [lv2Round_half h6 hg hlen (Nat.not_le.mp hle)] at hn
        cases hn

/-- Nothing is handed on from behind a product message, up to the length of an order book. -/
theorem not_handsOn_behind {config net : NetConfig} {g : HalfPacket} {p bs : Bytes} {b : Mem} {off n : Nat}
    (hp : IsProduct p) (hg : g.halfSize = 0) (hoff : 0 < off) (hlt : off < lv2ObQuoteLen) :
    ¬ HandsOn config g ⟨p ++ bs, b⟩ net off n := by
  rintro ⟨-, s, hvisit, rfl, -⟩
  have hlen := hp.msgLength (Seg.mem_starts ⟨p ++ bs, b⟩).left
  rw [← Mem.shift_zero (Seg.mem ⟨p ++ bs, b⟩)] at hlen
  have h6 : 6 < (LoopState.enter g ⟨p ++ bs, b⟩).dataLen := by
    simp only [LoopState.enter, List.length_append, hp.length]
    omega
  have hbehind := visits_behind h6 hg hlen hvisit
  simp only [LoopState.enter] at hbehind
  rcases hbehind with rfl | ⟨hpos, hle⟩
  · exact absurd hoff (Nat.lt_irrefl 0)
  · split at hpos
    · rename_i h676
      rw [if_pos h676] at hle
      omega
    · exact absurd hpos (Nat.lt_irrefl 0)

/-- **Exact condition.** From an empty half-packet state, with whatever messages behind the
product message and whatever memory behind the segment. -/
theorem following_handed_iff (config net : NetConfig) {g : HalfPacket} (hg : g.halfSize = 0) {p : Bytes}
    (hp : IsProduct p) (ms : List Bytes) (b : Mem) :
    (∀ place ∈ places p.length ms, HandsOn config g ⟨p ++ ms.flatten, b⟩ net place.1 place.2) ↔ ms = [] := by
  constructor
  · intro h
    cases ms with
    | nil => rfl
    | cons m ms =>
      have hfirst := h (p.length, m.length) List.mem_cons_self
      refine absurd hfirst (not_handsOn_behind hp hg ?_ ?_)
      · simp [hp.length]
      · simp [hp.length, lv2ObQuoteLen]
  · rintro rfl
    intro place hplace
    cases hplace

/-- A product message `lc`. -/
def lcMsg : Bytes := [0x6c, 0x63] ++ List.replicate 198 0

theorem lcMsg_isProduct : IsProduct lcMsg := ⟨rfl, List.mem_cons_self⟩

/-- A product message with a whole message of type `'5'` behind it. -/
theorem following_handed_iff_one :
    (∀ place ∈ places lcMsg.length [0x35 :: List.replicate 103 0],
        HandsOn ⟨0, 0, 0⟩ .start ⟨lcMsg ++ [0x35 :: List.replicate 103 0].flatten, fun _ => 0⟩ ⟨0, 0, 0⟩
          place.1 place.2) ↔ [0x35 :: List.replicate 103 (0 : UInt8)] = [] :=
  following_handed_iff _ _ rfl lcMsg_isProduct [0x35 :: List.replicate 103 0] _

/-- **Counterexample.** A whole message of type `'5'` behind it is lost. -/
theorem lost_behind_product : ¬ ∀ config net p ms b, config.Accepts net → IsProduct p → (∀ m ∈ ms, Complete m) →
    ∀ place ∈ places p.length ms,
      HandsOn config HalfPacket.start ⟨p ++ ms.flatten, b⟩ net place.1 place.2 := by
  intro h
  have hcomplete : Complete (0x35 :: List.replicate 103 0) :=
    ⟨List.cons_ne_nil _ _, shows_of_length (by decide) (by decide)⟩
  have hfirst := h ⟨0, 0, 0⟩ ⟨0, 0, 0⟩ lcMsg [0x35 :: List.replicate 103 0] (fun _ => 0) (by decide)
    lcMsg_isProduct (by simpa using hcomplete) (200, 104) List.mem_cons_self
  exact not_handsOn_behind lcMsg_isProduct rfl (by decide) (by decide) hfirst

end MdInfoSet.L3.Lv2Products
