import MdInfoSet.Core.WhileLoop
import MdInfoSet.L2Machine.Lv1Handler

/-!
# Termination of the Level-1 receive handler

The second `while` loop of `GFEXQuota::OnData_lv1`
(src/dz_gfex_md/src/dz_gfex_md.cpp:1089-1153), round by round. Every branch moves
`start` and takes as much off `re_msg_len`, but one:

    else if (type == TYPE_ARBITRAGE){
        uint32_t type = get_common_head_type(start, re_msg_len, q_len);
        uint32_t offset = q_len +  + sizeof(common_head);
    }

computes the offset as its neighbours do and does not apply it. The next round sees
the same head, and the handler never returns.

**Exact condition.** The handler terminates if and only if the loop, going from the
first head or mark behind the half message by the length of each message, comes upon
no arbitrage head (`onDataLv1_isSome_iff`).
-/
namespace MdInfoSet.L2.Lv1Termination

open MdInfoSet.L1.Lv1Head MdInfoSet.L2.Lv2Handler MdInfoSet.L2.Lv1Handler
open MdInfoSet.WhileLoop (Round Ends)

/-! ## Rounds -/

structure LoopState where
  calls : List Call
  start : Mem
  reMsgLen : Nat
  half : HalfBuffer

/-- The message at `start`, of `len` bytes, is done with. -/
def LoopState.advance (s : LoopState) (len : Nat) (calls : List Call) : LoopState :=
  { s with calls := s.calls ++ calls, start := s.start.shift len, reMsgLen := s.reMsgLen - len }

section Advance

variable (s : LoopState) (len : Nat) (calls : List Call)

@[simp] theorem LoopState.advance_start : (s.advance len calls).start = s.start.shift len := rfl
@[simp] theorem LoopState.advance_reMsgLen : (s.advance len calls).reMsgLen = s.reMsgLen - len := rfl
@[simp] theorem LoopState.advance_half : (s.advance len calls).half = s.half := rfl

@[simp] theorem LoopState.advance_zero : s.advance 0 [] = s := by simp [advance]

/-- Passing twice. -/
@[simp] theorem LoopState.advance_advance (len' : Nat) (calls' : List Call) :
    (s.advance len calls).advance len' calls' = s.advance (len + len') (calls ++ calls') := by
  simp [advance, Nat.sub_sub]

end Advance

/-- The condition of the loop and its body (cpp:1089-1153). -/
def lv1Round (s : LoopState) : Round LoopState (List Call × HalfBuffer) :=
  if s.reMsgLen = 0 then .leave (s.calls, s.half)
  else
    let type := getCommonHeadType s.start s.reMsgLen
    if isPart s.start s.reMsgLen type then
      .leave (s.calls, ⟨s.reMsgLen, s.half.buffer.memcpy 0 s.start s.reMsgLen⟩)
    else
      let t := s.advance (indexLen type) []
      if HasMark t.start ∧ sizeofCodeMappingInfo ≤ t.reMsgLen then
        .next (t.advance sizeofCodeMappingInfo [.code2Index (t.start.slice 0 sizeofCodeMappingInfo)])
      else match type with
        | some (.time, qLen) => .next (t.advance (qLen + sizeofCommonHead) (timeCalls t.start))
        | some (.arbitrage, _) => .next t
        | some (.quota, qLen) =>
          .next (t.advance (qLen + sizeofCommonHead) [.quota (t.start.slice sizeofCommonHead qLen)])
        | _ =>
          .next { t with reMsgLen := 0, half := ⟨t.reMsgLen, t.half.buffer.memcpy 0 t.start t.reMsgLen⟩ }

/-- The round leaves the loop or has less of the segment to go on with. -/
def Progress (s : LoopState) : Prop := ∀ s', lv1Round s = .next s' → s'.reMsgLen < s.reMsgLen

/-- `get_common_head_type` says `TYPE_ARBITRAGE`. -/
def IsArbitrage (start : Mem) (re : Nat) : Prop :=
  ∃ qLen, getCommonHeadType start re = some (.arbitrage, qLen)

/-- The length of what the loop passes to go on behind it, if it does: a mapping
record, with the index head before it, or a whole time or quota message. -/
def messageLen (start : Mem) (re : Nat) : Option Nat :=
  let type := getCommonHeadType start re
  if HasMark (start.shift (indexLen type)) ∧ sizeofCodeMappingInfo ≤ re - indexLen type then
    some (indexLen type + sizeofCodeMappingInfo)
  else match type with
    | some (.time, qLen) | some (.quota, qLen) =>
      if qLen + sizeofCommonHead ≤ re then some (qLen + sizeofCommonHead) else none
    | _ => none

theorem indexLen_le {start : Mem} {re : Nat} : indexLen (getCommonHeadType start re) ≤ re := by
  by_cases h : re < sizeofCommonHead
  · rw [getCommonHeadType_short h]
    exact Nat.zero_le _
  · unfold indexLen
    split <;> omega

theorem messageLen_le {start : Mem} {re n : Nat} (h : messageLen start re = some n) : 0 < n ∧ n ≤ re := by
  have hidx := @indexLen_le start re
  unfold messageLen at h
  dsimp only at h
  split at h
  · rename_i hm
    cases h
    unfold sizeofCodeMappingInfo at *
    omega
  · split at h
    · split at h <;> cases h
      exact ⟨by unfold sizeofCommonHead; omega, by assumption⟩
    · split at h <;> cases h
      exact ⟨by unfold sizeofCommonHead; omega, by assumption⟩
    · cases h

theorem IsArbitrage.messageLen {start : Mem} {re : Nat} (h : IsArbitrage start re) :
    messageLen start re = none := by
  obtain ⟨qLen, h⟩ := h
  simp only [Lv1Termination.messageLen, h, indexLen, Mem.shift_zero, Nat.sub_zero]
  exact if_neg fun hm => not_hasMark h hm.1

/-- What one round does, and what `lv1Loop` says of it. -/
inductive RoundResult (s : LoopState) : Round LoopState (List Call × HalfBuffer) → Prop
  | stuck (harb : IsArbitrage s.start s.reMsgLen) (hloop : lv1Loop s.start s.reMsgLen s.half = none) :
    RoundResult s (.next s)
  | pass (n : Nat) (calls : List Call) (hlen : messageLen s.start s.reMsgLen = some n)
    (hloop : lv1Loop s.start s.reMsgLen s.half =
      (lv1Loop (s.start.shift n) (s.reMsgLen - n) s.half).map fun r => (calls ++ r.1, r.2)) :
    RoundResult s (.next (s.advance n calls))
  | keep (n : Nat) (half : HalfBuffer) (hpos : 0 < s.reMsgLen) (harb : ¬ IsArbitrage s.start s.reMsgLen)
    (hlen : messageLen s.start s.reMsgLen = none)
    (hloop : lv1Loop s.start s.reMsgLen s.half = some ([], half)) :
    RoundResult s (.next { s.advance n [] with reMsgLen := 0, half := half })
  | leave (half : HalfBuffer) (harb : ¬ IsArbitrage s.start s.reMsgLen)
    (hlen : messageLen s.start s.reMsgLen = none)
    (hloop : lv1Loop s.start s.reMsgLen s.half = some ([], half)) :
    RoundResult s (.leave (s.calls, half))

/-- What is not whole is not passed, and no arbitrage message. -/
theorem isPart_messageLen {start : Mem} {re : Nat} (h : isPart start re (getCommonHeadType start re)) :
    ¬ IsArbitrage start re ∧ messageLen start re = none := by
  cases htype : getCommonHeadType start re with
  | none =>
    have hno : ¬ (HasMark start ∧ sizeofCodeMappingInfo ≤ re) := by
      rw [htype] at h
      unfold isPart sizeofCommonHead sizeofCodeMappingInfo at *
      omega
    exact ⟨by simp [IsArbitrage, htype], by simp [messageLen, htype, hno]⟩
  | some x =>
    obtain ⟨type, qLen⟩ := x
    have hmark := not_hasMark htype
    have h24 : ¬ re < sizeofCommonHead := fun hlt => by
      rw [getCommonHeadType_short hlt] at htype
      cases htype
    rw [htype] at h
    cases type with
    | index => exact absurd h (by simp [isPart, h24, hmark])
    | arbitrage => exact absurd h (by simp [isPart, h24, hmark])
    | time =>
      simp only [isPart, h24, hmark, false_and, false_or] at h
      exact ⟨by simp [IsArbitrage, htype], by simp [messageLen, htype, indexLen, hmark, Nat.not_le.mpr h]⟩
    | quota =>
      simp only [isPart, h24, hmark, false_and, false_or] at h
      exact ⟨by simp [IsArbitrage, htype], by simp [messageLen, htype, indexLen, hmark, Nat.not_le.mpr h]⟩

theorem lv1Round_result (s : LoopState) : RoundResult s (lv1Round s) := by
  by_cases h0 : s.reMsgLen = 0
  · have htype : getCommonHeadType s.start 0 = none := getCommonHeadType_short (by decide)
    rw [lv1Round, if_pos h0]
    refine .leave _ ?_ ?_ ?_
    · simp [IsArbitrage, h0, htype]
    · simp [messageLen, h0, htype, sizeofCodeMappingInfo]
    · rw [h0, lv1Loop_zero]
  by_cases hpart : isPart s.start s.reMsgLen (getCommonHeadType s.start s.reMsgLen)
  · rw [lv1Round, if_neg h0]
    simp only [if_pos hpart]
    exact .leave _ (isPart_messageLen hpart).1 (isPart_messageLen hpart).2 (lv1Loop_part (by omega) hpart)
  -- the loop and the round go through the same branches from here on
  obtain ⟨result, hresult⟩ : ∃ r, lv1Loop s.start s.reMsgLen s.half = r := ⟨_, rfl⟩
  obtain ⟨round, hround⟩ : ∃ r, lv1Round s = r := ⟨_, rfl⟩
  have hloop := hresult
  rw [hround]
  rw [lv1Loop, if_neg h0] at hloop
  rw [lv1Round, if_neg h0] at hround
  simp only [if_neg hpart, LoopState.advance_advance, LoopState.advance_start, LoopState.advance_reMsgLen,
    LoopState.advance_half, List.nil_append] at hround hloop
  by_cases hm : HasMark (s.start.shift (indexLen (getCommonHeadType s.start s.reMsgLen))) ∧
      sizeofCodeMappingInfo ≤ s.reMsgLen - indexLen (getCommonHeadType s.start s.reMsgLen)
  · rw [if_pos hm] at hround hloop
    rw [← hround]
    exact .pass _ _ (by simp [messageLen, hm]) (hresult.trans hloop.symm)
  rw [if_neg hm] at hround hloop
  have hnone : messageLen s.start s.reMsgLen = match getCommonHeadType s.start s.reMsgLen with
      | some (.time, qLen) | some (.quota, qLen) =>
        if qLen + sizeofCommonHead ≤ s.reMsgLen then some (qLen + sizeofCommonHead) else none
      | _ => none := if_neg hm
  cases htype : getCommonHeadType s.start s.reMsgLen with
  | none =>
    rw [htype] at hround hloop hnone
    rw [← hround]
    exact .keep _ _ (by omega) (by simp [IsArbitrage, htype]) hnone (hresult.trans hloop.symm)
  | some x =>
    obtain ⟨type, qLen⟩ := x
    rw [htype] at hround hloop hpart hnone
    cases type with
    | index =>
      rw [← hround]
      exact .keep _ _ (by omega) (by simp [IsArbitrage, htype]) hnone (hresult.trans hloop.symm)
    | arbitrage =>
      rw [← hround]
      simp only [indexLen, LoopState.advance_zero]
      exact .stuck ⟨qLen, htype⟩ (hresult.trans hloop.symm)
    | time =>
      have hwhole : qLen + sizeofCommonHead ≤ s.reMsgLen := by
        unfold isPart at hpart
        omega
      rw [← hround]
      simp only [indexLen, Nat.zero_add, Mem.shift_zero] at hloop ⊢
      exact .pass _ _ (hnone.trans (if_pos hwhole)) (hresult.trans hloop.symm)
    | quota =>
      have hwhole : qLen + sizeofCommonHead ≤ s.reMsgLen := by
        unfold isPart at hpart
        omega
      rw [← hround]
      simp only [indexLen, Nat.zero_add, Mem.shift_zero] at hloop ⊢
      exact .pass _ _ (hnone.trans (if_pos hwhole)) (hresult.trans hloop.symm)

/-- Only an arbitrage head keeps a round from making progress. -/
theorem progress_iff (s : LoopState) : Progress s ↔ ¬ IsArbitrage s.start s.reMsgLen := by
  have hresult := lv1Round_result s
  unfold Progress
  generalize lv1Round s = round at hresult
  cases hresult with
  | stuck harb => exact ⟨fun h => absurd (h s rfl) (Nat.lt_irrefl _), fun h => absurd harb h⟩
  | pass n calls hlen =>
    have hn := messageLen_le hlen
    refine ⟨fun _ harb => ?_, fun _ s' hs' => ?_⟩
    · rw [harb.messageLen] at hlen
      cases hlen
    · cases hs'
      rw [LoopState.advance_reMsgLen]
      omega
  | keep n half hpos harb =>
    refine ⟨fun _ => harb, fun _ s' hs' => ?_⟩
    cases hs'
    exact hpos
  | leave half harb => exact ⟨fun _ => harb, fun _ s' hs' => by cases hs'⟩

/-! ## The loop -/

/-- `lv1Loop` is the loop of these rounds. -/
theorem lv1Loop_ends (s : LoopState) (r : List Call × HalfBuffer) :
    Ends lv1Round s r ↔
      ∃ r', lv1Loop s.start s.reMsgLen s.half = some r' ∧ r = (s.calls ++ r'.1, r'.2) := by
  induction hn : s.reMsgLen using Nat.strongRecOn generalizing s with
  | _ n ih =>
    subst hn
    have hresult := lv1Round_result s
    generalize hround : lv1Round s = round at hresult
    cases hresult with
    | stuck _ hloop => simp [WhileLoop.not_ends_of_next_self hround, hloop]
    | pass n calls hlen hloop =>
      have hn := messageLen_le hlen
      rw [WhileLoop.ends_next hround, ih (s.reMsgLen - n) (by omega) (s.advance n calls) rfl, hloop]
      cases hrest : lv1Loop (s.start.shift n) (s.reMsgLen - n) s.half with
      | none => simp [hrest]
      | some rest => simp [hrest, LoopState.advance]
    | keep n half hpos _ _ hloop =>
      have hleave : lv1Round { s.advance n [] with reMsgLen := 0, half := half } =
          .leave (s.calls ++ [], half) := if_pos rfl
      rw [WhileLoop.ends_next hround, WhileLoop.ends_leave hleave, hloop]
      simp
    | leave half _ _ hloop =>
      rw [WhileLoop.ends_leave hround, hloop]
      simp

/-- Passing the messages from `start` on, the loop comes upon an arbitrage head. -/
inductive MeetsArbitrage : Mem → Nat → Prop where
  | head {start : Mem} {re : Nat} (h : IsArbitrage start re) : MeetsArbitrage start re
  | pass {start : Mem} {re n : Nat} (hlen : messageLen start re = some n)
    (h : MeetsArbitrage (start.shift n) (re - n)) : MeetsArbitrage start re

theorem not_meets_zero (start : Mem) : ¬ MeetsArbitrage start 0 := by
  intro h
  cases h with
  | head harb =>
    obtain ⟨qLen, harb⟩ := harb
    rw [getCommonHeadType_short (by decide)] at harb
    cases harb
  | pass hlen _ =>
    have := messageLen_le hlen
    omega

/-- The loop ends unless it comes upon one. -/
theorem ends_iff (s : LoopState) : (∃ r, Ends lv1Round s r) ↔ ¬ MeetsArbitrage s.start s.reMsgLen := by
  constructor
  · intro ⟨r, hends⟩ hmeets
    generalize hstart : s.start = start at hmeets
    generalize hre : s.reMsgLen = re at hmeets
    induction hmeets generalizing s with
    | head harb =>
      subst hstart hre
      have hresult := lv1Round_result s
      generalize hround : lv1Round s = round at hresult
      cases hresult with
      | stuck => exact WhileLoop.not_ends_of_next_self hround hends
      | pass _ _ hlen =>
        rw [harb.messageLen] at hlen
        cases hlen
      | keep _ _ _ hno => exact hno harb
      | leave _ hno => exact hno harb
    | pass hlen _ ih =>
      subst hstart hre
      have hresult := lv1Round_result s
      generalize hround : lv1Round s = round at hresult
      cases hresult with
      | stuck harb =>
        rw [harb.messageLen] at hlen
        cases hlen
      | pass n calls hlen' =>
        obtain rfl := Option.some.inj (hlen'.symm.trans hlen)
        exact ih (s.advance n calls) ((WhileLoop.ends_next hround).mp hends) rfl rfl
      | keep _ _ _ _ hnone =>
        rw [hnone] at hlen
        cases hlen
      | leave _ _ hnone =>
        rw [hnone] at hlen
        cases hlen
  · intro hno
    refine WhileLoop.ends_of_decreasing (fun s => ¬ MeetsArbitrage s.start s.reMsgLen) LoopState.reMsgLen
      (fun s s' hs hround => ⟨?_, (progress_iff s).mpr (fun harb => hs (.head harb)) s' hround⟩) hno
    have hresult := lv1Round_result s
    rw [hround] at hresult
    cases hresult with
    | stuck harb => exact hs
    | pass n calls hlen => exact fun hmeets => hs (.pass hlen hmeets)
    | keep => exact not_meets_zero _

theorem lv1Loop_isSome_iff (start : Mem) (re : Nat) (g : HalfBuffer) :
    (lv1Loop start re g).isSome ↔ ¬ MeetsArbitrage start re := by
  rw [← ends_iff ⟨[], start, re, g⟩, Option.isSome_iff_exists]
  simp only [lv1Loop_ends]
  exact ⟨fun ⟨r, hr⟩ => ⟨_, r, hr, rfl⟩, fun ⟨_, r, hr, _⟩ => ⟨r, hr⟩⟩

/-! ## The handler -/

/-- A head or a mark begins at `start`. -/
def Shown (start : Mem) (re : Nat) : Prop :=
  (sizeofStaticInfoMark ≤ re ∧ HasMark start) ∨ (sizeofCommonHead ≤ re ∧ (getCommonHeadType start re).isSome)

/-- The first one begins `n` bytes behind `start`, or there is none in all `n` bytes. -/
structure FirstShown (start : Mem) (re n : Nat) : Prop where
  le : n ≤ re
  before : ∀ i < n, ¬ Shown (start.shift i) (re - i)
  shown : n < re → Shown (start.shift n) (re - n)

theorem lv1Scan_firstShown (start : Mem) (re : Nat) :
    ∃ n, FirstShown start re n ∧ lv1Scan start re = (start.shift n, re - n) := by
  induction re generalizing start with
  | zero => exact ⟨0, ⟨by omega, nofun, nofun⟩, by simp [lv1Scan]⟩
  | succ re ih =>
    rw [lv1Scan]
    by_cases h : Shown start (re + 1)
    · exact ⟨0, ⟨by omega, nofun, fun _ => by simpa using h⟩, by rw [Mem.shift_zero]; exact if_pos h⟩
    · obtain ⟨n, hfirst, hscan⟩ := ih (start.shift 1)
      refine ⟨n + 1, ⟨by have := hfirst.le; omega, fun i hi => ?_, fun hn => ?_⟩, ?_⟩
      · cases i with
        | zero => simpa using h
        | succ i => simpa [Nat.add_comm 1 i] using hfirst.before i (by omega)
      · simpa [Nat.add_comm 1 n] using hfirst.shown (by omega)
      · rw [Nat.add_sub_add_right, Nat.add_comm n 1, ← Mem.shift_shift, ← hscan]
        exact if_neg h

theorem FirstShown.unique {start : Mem} {re n m : Nat} (hn : FirstShown start re n)
    (hm : FirstShown start re m) : n = m := by
  rcases Nat.lt_trichotomy n m with h | h | h
  · exact absurd (hn.shown (Nat.lt_of_lt_of_le h hm.le)) (hm.before n h)
  · exact h
  · exact absurd (hm.shown (Nat.lt_of_lt_of_le h hn.le)) (hn.before m h)

/-- From the first head or mark on, the loop comes upon an arbitrage head. -/
def ArbitrageAhead (start : Mem) (re : Nat) : Prop :=
  ∃ n, FirstShown start re n ∧ MeetsArbitrage (start.shift n) (re - n)

theorem MeetsArbitrage.ahead {start : Mem} {re : Nat} (h : MeetsArbitrage start re) (hshown : Shown start re) :
    ArbitrageAhead start re :=
  ⟨0, ⟨Nat.zero_le _, nofun, fun _ => by simpa using hshown⟩, by simpa using h⟩

theorem lv1Parse_isSome_iff (start : Mem) (re : Int) (g : HalfBuffer) :
    (lv1Parse start re g).isSome ↔ ¬ ArbitrageAhead start re.toNat := by
  obtain ⟨n, hfirst, hscan⟩ := lv1Scan_firstShown start re.toNat
  have hahead : ArbitrageAhead start re.toNat ↔ MeetsArbitrage (start.shift n) (re.toNat - n) := by
    constructor
    · intro ⟨m, hm, hmeets⟩
      rwa [hfirst.unique hm]
    · intro hmeets
      exact ⟨n, hfirst, hmeets⟩
  rw [hahead, lv1Parse, hscan]
  exact lv1Loop_isSome_iff _ _ g

/-- How many bytes of the segment complete a half message of `total` bytes, if it has
them. -/
def wholeNeed (used : Nat) (re : Int) (total : Nat) : Option Nat :=
  if asSize re < subSize total used then none else some (subSize total used)

/-- The same of the half message kept, which shows its length once `copyHead` has put
enough of it together. -/
def halfNeed (g : HalfBuffer) (start : Mem) (re : Int) : Option Nat :=
  let msg := copyHead g start re
  match getCommonHeadType msg sizeofCommonHead with
  | some (.index, _) => some (subSize sizeofCommonHead g.used)
  | some (_, qLen) => wholeNeed g.used re (qLen + sizeofCommonHead)
  | none => if HasMark msg then wholeNeed g.used re sizeofCodeMappingInfo else some 0

/-- What the last two stages are given: the segment behind its index head, or behind
the half message it completes. -/
def restOf (g : HalfBuffer) (data : Seg) : Option (Mem × Int) :=
  let re := asInt32 data.bytes.length
  let type := getCommonHeadType data.mem (asSize re)
  if type.isSome ∨ HasMark data.mem ∨ g.used = 0 then some (data.mem.shift (indexLen type), re - indexLen type)
  else (halfNeed g data.mem re).map fun need => (data.mem.shift need, asInt32 (re - need))

def HalfResult.need : HalfResult → Option Nat
  | .more _ => none
  | .done _ need _ => some need

theorem fillHalf_need (used : Nat) (buffer start : Mem) (re : Int) (total : Nat) (calls : Mem → List Call) :
    HalfResult.need (fillHalf used buffer start re total calls) = wholeNeed used re total := by
  unfold fillHalf wholeNeed
  dsimp only
  split <;> rfl

theorem halfStage_need (g : HalfBuffer) (start : Mem) (re : Int) :
    HalfResult.need (halfStage g start re) = halfNeed g start re := by
  unfold halfStage halfNeed
  dsimp only
  cases htype : getCommonHeadType (copyHead g start re) sizeofCommonHead with
  | none =>
    dsimp only
    split
    · exact fillHalf_need _ _ _ _ _ _
    · rfl
  | some x =>
    obtain ⟨type, qLen⟩ := x
    have hmark := not_hasMark htype
    cases type with
    | index => rfl
    | arbitrage =>
      dsimp only
      rw [if_neg hmark, fillHalf_need]
    | time =>
      dsimp only
      rw [if_neg hmark, fillHalf_need, getCommonHeadType_qLen htype (by decide)]
    | quota =>
      dsimp only
      rw [if_neg hmark, fillHalf_need, getCommonHeadType_qLen htype (by decide)]

/-- If something is left, the loop comes upon no arbitrage head in it. -/
def NoArbitrage (rest : Option (Mem × Int)) : Prop :=
  ∀ start re, rest = some (start, re) → ¬ ArbitrageAhead start re.toNat

theorem noArbitrage_some {start : Mem} {re : Int} :
    NoArbitrage (some (start, re)) ↔ ¬ ArbitrageAhead start re.toNat := by
  simp [NoArbitrage]

theorem lv1Parse_ends (start : Mem) (re : Int) (g : HalfBuffer) :
    (lv1Parse start re g).isSome ↔ NoArbitrage (some (start, re)) :=
  (lv1Parse_isSome_iff start re g).trans noArbitrage_some.symm

/-- **Exact condition.** -/
theorem onDataLv1_isSome_iff (config net : NetConfig) (g : HalfBuffer) (data : Seg) :
    (onDataLv1 config g data net).isSome ↔
      (config.Accepts net → ¬ isLogin data.mem data.bytes.length → NoArbitrage (restOf g data)) := by
  unfold onDataLv1
  dsimp only
  by_cases hnet : config.Accepts net
  case neg => simp [hnet]
  by_cases hlogin : isLogin data.mem data.bytes.length
  case pos => simp [hlogin]
  rw [if_neg (not_not.mpr hnet), if_neg hlogin]
  simp only [hnet, hlogin, not_false_eq_true, forall_const]
  unfold restOf
  dsimp only
  generalize asInt32 data.bytes.length = re
  by_cases hshown : (getCommonHeadType data.mem (asSize re)).isSome ∨ HasMark data.mem
  · -- the half message is dropped
    rw [if_pos hshown, if_pos (or_assoc.mp (.inl hshown)), if_neg (Nat.lt_irrefl 0)]
    exact lv1Parse_ends _ _ _
  rw [if_neg hshown]
  have hskip : indexLen (getCommonHeadType data.mem (asSize re)) = 0 := by
    rw [Option.not_isSome_iff_eq_none.mp (not_or.mp hshown).1]
    rfl
  rw [hskip, Mem.shift_zero, Int.natCast_zero, Int.sub_zero]
  by_cases hused : g.used = 0
  · rw [if_neg (by omega), if_pos (.inr (.inr hused))]
    exact lv1Parse_ends _ _ _
  · have hno : ¬ ((getCommonHeadType data.mem (asSize re)).isSome ∨ HasMark data.mem ∨ g.used = 0) := fun h =>
      (or_assoc.mpr h).elim hshown hused
    rw [if_pos (by omega), if_neg hno, ← halfStage_need]
    cases halfStage g data.mem re with
    | more g' => simp [HalfResult.need, NoArbitrage]
    | done calls need buffer => simpa [HalfResult.need] using lv1Parse_ends _ _ _

/-- An arbitrage message, its head and a body of 256 bytes. -/
def arbitrageMessage : Seg where
  bytes := [0x01, 0x00, 0x01, 0x00, 0x00, 0x00, 0x00, 0x00, 0x01, 0x00, 0x00, 0x02, 0x33, 0x53, 0x00, 0x04,
    0x00, 0x00, 0x00, 0x00, 0x00, 0x00, 0x01, 0x00] ++ List.replicate 256 0
  beyond := fun _ => 0

theorem isArbitrage_message : IsArbitrage arbitrageMessage.mem 280 := ⟨0x100, by decide +kernel⟩

end MdInfoSet.L2.Lv1Termination
