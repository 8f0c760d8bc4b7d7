import MdInfoSet.Core.Machine
import MdInfoSet.L2Machine.Lv1Copies

/-!
# Bounds of the half buffer

The copies of `GFEXQuota::OnData_lv1` into the 1024 bytes of `m_half_buffer`
(src/dz_gfex_md/src/dz_gfex_md.h:632). No record is longer than 535 bytes, so completing
one is harmless as long as no more than its length was kept. What is kept at the end of a
segment is whatever is left there: it may be longer than the buffer and, behind an index
head, longer than the record it begins with. Then the next call computes `need` below zero.

**Exact condition.** `KeepsRoom`, of the half message before a call and its segment
(`along_bounded_iff`).
-/
namespace MdInfoSet.L2.Lv1Bounds

open MdInfoSet.L1.Lv1Head MdInfoSet.L2.Lv2Handler MdInfoSet.L2.Lv1Handler MdInfoSet.L2.Lv1Termination
open MdInfoSet.L2.Lv1Copies

/-- Every copy of the call is in bounds, and `need` is not computed below zero. -/
structure Bounded (config : NetConfig) (g : HalfBuffer) (data : Seg) (net : NetConfig) : Prop where
  copies : ∀ c ∈ callCopies config g data net, c.InBounds data.bytes.length
  need : Takes config data net → Resumes g data → ∀ total,
    recordLen (copyHead g data.mem (asInt32 data.bytes.length)) = some total → g.used ≤ total

/-- Passing the messages from `start` on, the loop comes to `n` bytes it keeps. -/
inductive LeftOver : Mem → Nat → Nat → Prop where
  | keep {start : Mem} {re : Nat} (h : Keeps start re) :
    LeftOver start re (re - indexLen (getCommonHeadType start re))
  | pass {start : Mem} {re n k : Nat} (hlen : messageLen start re = some k)
    (h : LeftOver (start.shift k) (re - k) n) : LeftOver start re n

/-- What is kept from the first head or mark on has room in the buffer. -/
def LeavesRoom (start : Mem) (re : Nat) : Prop :=
  ∀ k n, FirstShown start re k → LeftOver (start.shift k) (re - k) n → n ≤ halfBufferSize

/-- The half message is not longer than the record it begins with, and the segment has the
rest of an index head. -/
def Completable (g : HalfBuffer) (data : Seg) : Prop :=
  let re := asInt32 data.bytes.length
  (g.used < 60 → 0 ≤ re) ∧ ∀ total, recordLen (copyHead g data.mem re) = some total →
    g.used ≤ total ∧ (IsIndex (copyHead g data.mem re) → total ≤ g.used + data.bytes.length)

structure KeepsRoom (g : HalfBuffer) (data : Seg) : Prop where
  half : Resumes g data → Completable g data
  rest : ∀ start re, restOf g data = some (start, re) → LeavesRoom start re.toNat

section Sizes

variable {n size : Nat}

theorem asInt32_le (size : Nat) : asInt32 size ≤ size := by
  unfold asInt32 Int.bmod
  dsimp only
  split <;> omega

theorem asInt32_ge (x : Int) : -2 ^ 31 ≤ asInt32 x := by
  unfold asInt32 Int.bmod
  dsimp only
  split <;> omega

/-- What the comparison with `re_msg_len` lets pass is there. -/
theorem le_of_le_asSize (hn : n < 2 ^ 31) (h : n ≤ asSize (asInt32 size)) : n ≤ size := by
  unfold asSize asInt32 Int.bmod at h
  dsimp only at h
  split at h <;> omega

theorem add_asInt32_sub_le (h : n ≤ size) : n + (asInt32 (asInt32 size - n)).toNat ≤ size := by
  unfold asInt32 Int.bmod
  dsimp only
  split <;> split <;> omega

end Sizes

theorem headCopies_inBounds_iff {g : HalfBuffer} {size : Nat} :
    (∀ c ∈ headCopies g (asInt32 size), c.InBounds size) ↔ (g.used < 60 → 0 ≤ asInt32 size) := by
  have hle := asInt32_le size
  have hge := asInt32_ge size
  unfold headCopies
  generalize asInt32 (size : Int) = re at *
  split
  · rename_i h60
    simp only [List.mem_singleton, forall_eq, h60, forall_const]
    constructor
    · intro h
      have hdst := h.dst
      simp only [halfBufferSize, asSize] at hdst
      omega
    · intro h
      constructor
      · simp only [halfBufferSize, asSize]
        omega
      · simp only [asSize]
        omega
  · rename_i h60
    simp [h60]

/-- A record that is not shorter than what is kept of it. -/
theorem fillCopies_inBounds {used size total : Nat} (hused : used ≤ total) (hle : total ≤ maxRecordLen) :
    ∀ c ∈ fillCopies used (asInt32 size) total, c.InBounds size := by
  have hsub : subSize total used = total - used := if_pos hused
  unfold maxRecordLen at hle
  intro c hc
  unfold fillCopies at hc
  dsimp only at hc
  rw [hsub] at hc
  split at hc
  · rename_i hlt
    rw [List.mem_singleton] at hc
    subst hc
    have hsize := le_of_le_asSize (by omega) (Nat.le_refl (asSize (asInt32 size)))
    constructor
    · simp only [halfBufferSize]
      omega
    · simpa using hsize
  · rename_i hge
    rw [List.mem_singleton] at hc
    subst hc
    have hsize := le_of_le_asSize (by omega) (Nat.not_lt.mp hge)
    constructor
    · simp only [halfBufferSize]
      omega
    · simpa using hsize

theorem loopCopies_inBounds_iff {data : Mem} {off re size : Nat} (hle : off + re ≤ size) :
    (∀ c ∈ loopCopies data off re, c.InBounds size) ↔
      ∀ n, LeftOver (data.shift off) re n → n ≤ halfBufferSize := by
  induction hn : re using Nat.strongRecOn generalizing off re with
  | _ n ih =>
    subst hn
    by_cases h0 : re = 0
    · subst h0
      rw [loopCopies, if_pos rfl]
      refine ⟨fun _ n h => ?_, fun _ c hc => by cases hc⟩
      cases h with
      | keep h => exact absurd h.pos (Nat.lt_irrefl 0)
      | pass hlen => have := messageLen_le hlen; omega
    by_cases harb : IsArbitrage (data.shift off) re
    · rw [loopCopies_stuck harb]
      refine ⟨fun _ n h => ?_, fun _ c hc => by cases hc⟩
      cases h with
      | keep h => exact absurd harb h.notArbitrage
      | pass hlen =>
        rw [harb.messageLen] at hlen
        cases hlen
    cases hlen : messageLen (data.shift off) re with
    | none =>
      have hkeep : Keeps (data.shift off) re := ⟨by omega, harb, hlen⟩
      have hidx := @indexLen_le (data.shift off) re
      rw [loopCopies_keep hkeep]
      simp only [List.mem_singleton, forall_eq]
      constructor
      · intro h n hleft
        cases hleft with
        | keep => simpa using h.dst
        | pass hsome =>
          rw [hlen] at hsome
          cases hsome
      · intro h
        constructor
        · simpa using h _ (.keep hkeep)
        · dsimp only
          omega
    | some k =>
      have hk := messageLen_le hlen
      rw [loopCopies_pass hlen, ih (re - k) (by omega) (by omega) rfl, ← Mem.shift_shift]
      constructor
      · intro h n hleft
        cases hleft with
        | keep hkeep =>
          rw [hkeep.notWhole] at hlen
          cases hlen
        | pass hsome hrest =>
          obtain rfl := Option.some.inj (hsome.symm.trans hlen)
          exact h n hrest
      · intro h n hleft
        exact h n (.pass hlen hleft)

theorem parseCopies_inBounds_iff {data : Mem} {off size : Nat} {re : Int} (hle : off + re.toNat ≤ size) :
    (∀ c ∈ parseCopies data off re, c.InBounds size) ↔ LeavesRoom (data.shift off) re.toNat := by
  obtain ⟨k, hfirst, hscan⟩ := lv1Scan_firstShown (data.shift off) re.toNat
  have hk := hfirst.le
  rw [parseCopies, hscan]
  dsimp only
  rw [show re.toNat - (re.toNat - k) = k by omega, loopCopies_inBounds_iff (by omega), ← Mem.shift_shift]
  constructor
  · intro h k' n hfirst' hleft
    rw [hfirst'.unique hfirst] at hleft
    exact h n hleft
  · intro h n hleft
    exact h k n hfirst hleft

theorem halfCopies_inBounds_iff (g : HalfBuffer) (data : Seg) :
    ((∀ c ∈ halfCopies g data.mem (asInt32 data.bytes.length), c.InBounds data.bytes.length) ∧
      ∀ total, recordLen (copyHead g data.mem (asInt32 data.bytes.length)) = some total → g.used ≤ total) ↔
      Completable g data := by
  unfold Completable
  dsimp only
  rw [← headCopies_inBounds_iff]
  cases half_cases g data.mem (asInt32 data.bytes.length) with
  | index hlen hindex hcopies =>
    have hcopy : g.used ≤ sizeofCommonHead →
        (Copy.InBounds data.bytes.length ⟨g.used, 0, subSize sizeofCommonHead g.used⟩ ↔
          sizeofCommonHead ≤ g.used + data.bytes.length) := by
      intro hused
      rw [subSize, if_pos hused]
      constructor
      · intro h
        have := h.src
        dsimp only at this
        omega
      · intro h
        constructor
        · simp only [sizeofCommonHead, halfBufferSize] at hused ⊢
          omega
        · dsimp only
          omega
    simp only [hcopies, hlen, hindex, List.forall_mem_append, List.mem_singleton, forall_eq,
      Option.some.injEq, forall_eq', forall_const]
    rw [and_assoc]
    refine and_congr_right fun _ => ⟨fun ⟨hc, hused⟩ => ⟨hused, (hcopy hused).mp hc⟩, fun ⟨hused, hc⟩ =>
      ⟨(hcopy hused).mpr hc, hused⟩⟩
  | record total calls hlen hindex hle hcopies =>
    simp only [hcopies, hlen, hindex, List.forall_mem_append, Option.some.injEq, forall_eq', false_imp_iff,
      and_true]
    rw [and_assoc]
    refine and_congr_right fun _ => and_iff_right_of_imp fun hused => ?_
    exact fillCopies_inBounds hused hle
  | unknown hlen hindex hcopies =>
    simp [hcopies, hlen]

/-- What completes the half message is there. -/
theorem Completable.need_le {g : HalfBuffer} {data : Seg} (h : Completable g data) {need : Nat}
    (hneed : halfNeed g data.mem (asInt32 data.bytes.length) = some need) : need ≤ data.bytes.length := by
  have htotal := h.2
  rw [← halfStage_need] at hneed
  cases half_cases g data.mem (asInt32 data.bytes.length) with
  | index hlen hindex hcopies hstage =>
    obtain ⟨hused, hsize⟩ := htotal _ hlen
    rw [hstage, HalfResult.need, Option.some.injEq, subSize, if_pos hused] at hneed
    have := hsize hindex
    omega
  | record total calls hlen hindex hle hcopies hstage =>
    obtain ⟨hused, -⟩ := htotal _ hlen
    rw [hstage, fillHalf_need, wholeNeed, subSize, if_pos hused] at hneed
    unfold maxRecordLen at hle
    split at hneed
    · cases hneed
    · rename_i hge
      cases hneed
      exact le_of_le_asSize (by omega) (Nat.not_lt.mp hge)
  | unknown hlen hindex hcopies hstage =>
    rw [hstage, HalfResult.need, Option.some.injEq] at hneed
    omega

theorem not_resumes_iff {g : HalfBuffer} {data : Seg} :
    ¬ Resumes g data ↔
      (getCommonHeadType data.mem (asSize (asInt32 data.bytes.length))).isSome ∨ HasMark data.mem ∨ g.used = 0 := by
  unfold Resumes
  rw [← Option.not_isSome_iff_eq_none]
  constructor
  · intro h
    by_cases hs : (getCommonHeadType data.mem (asSize (asInt32 data.bytes.length))).isSome
    · exact .inl hs
    · by_cases hm : HasMark data.mem
      · exact .inr (.inl hm)
      · exact .inr (.inr (Nat.eq_zero_of_not_pos fun hpos => h ⟨hpos, hs, hm⟩))
  · rintro (h | h | h) ⟨hpos, hs, hm⟩
    · exact hs h
    · exact hm h
    · omega

theorem indexLen_lt (type : Option (HeadType × Nat)) : indexLen type < 2 ^ 31 := by
  unfold indexLen sizeofCommonHead
  split <;> omega

/-- An index head that is skipped is there. -/
theorem indexLen_le_size (data : Mem) (size : Nat) :
    indexLen (getCommonHeadType data (asSize (asInt32 size))) ≤ size :=
  le_of_le_asSize (indexLen_lt _) indexLen_le

theorem restOf_fresh {g : HalfBuffer} {data : Seg} (hres : ¬ Resumes g data) :
    restOf g data =
      some (data.mem.shift (indexLen (getCommonHeadType data.mem (asSize (asInt32 data.bytes.length)))),
        asInt32 data.bytes.length -
          indexLen (getCommonHeadType data.mem (asSize (asInt32 data.bytes.length)))) := by
  unfold restOf
  exact if_pos (not_resumes_iff.mp hres)

theorem restOf_resumes {g : HalfBuffer} {data : Seg} (hres : Resumes g data) :
    restOf g data = (halfNeed g data.mem (asInt32 data.bytes.length)).map fun need =>
      (data.mem.shift need, asInt32 (asInt32 data.bytes.length - need)) := by
  unfold restOf
  exact if_neg fun h => not_resumes_iff.mpr h hres

section Cases

variable {config net : NetConfig} {g : HalfBuffer} {data : Seg} (htakes : Takes config data net)

include htakes

theorem callCopies_fresh (hres : ¬ Resumes g data) :
    callCopies config g data net =
      parseCopies data.mem (indexLen (getCommonHeadType data.mem (asSize (asInt32 data.bytes.length))))
        (asInt32 data.bytes.length -
          indexLen (getCommonHeadType data.mem (asSize (asInt32 data.bytes.length)))) := by
  unfold callCopies
  rw [if_pos htakes]
  exact if_neg hres

theorem callCopies_resumes (hres : Resumes g data) :
    callCopies config g data net =
      halfCopies g data.mem (asInt32 data.bytes.length) ++
        match halfNeed g data.mem (asInt32 data.bytes.length) with
        | none => []
        | some need => parseCopies data.mem need (asInt32 (asInt32 data.bytes.length - need)) := by
  unfold callCopies
  rw [if_pos htakes]
  exact if_pos hres

/-- A call without a half message to complete. -/
theorem bounded_fresh_iff (hres : ¬ Resumes g data) : Bounded config g data net ↔ KeepsRoom g data := by
  have hrest := restOf_fresh hres
  have hcopies := callCopies_fresh htakes hres
  have hskip := indexLen_le_size data.mem data.bytes.length
  have hre := asInt32_le data.bytes.length
  generalize indexLen (getCommonHeadType data.mem (asSize (asInt32 data.bytes.length))) = skip at *
  have hle : skip + (asInt32 data.bytes.length - skip).toNat ≤ data.bytes.length := by
    omega
  have hparse := @parseCopies_inBounds_iff data.mem skip _ _ hle
  constructor
  · intro h
    refine ⟨fun hr => absurd hr hres, fun start re hs => ?_⟩
    rw [hrest, Option.some.injEq, Prod.mk.injEq] at hs
    obtain ⟨rfl, rfl⟩ := hs
    exact hparse.mp (hcopies ▸ h.copies)
  · intro h
    refine ⟨?_, fun _ hr => absurd hr hres⟩
    rw [hcopies]
    exact hparse.mpr (h.rest _ _ hrest)

/-- A call that goes on with one. -/
theorem bounded_resumes_iff (hres : Resumes g data) : Bounded config g data net ↔ KeepsRoom g data := by
  have hcopies := callCopies_resumes htakes hres
  have hrest := restOf_resumes hres
  have hhalf := halfCopies_inBounds_iff g data
  constructor
  · intro h
    have hall := h.copies
    rw [hcopies, List.forall_mem_append] at hall
    have hcompl := hhalf.mp ⟨hall.1, h.need htakes hres⟩
    refine ⟨fun _ => hcompl, fun start re hs => ?_⟩
    rw [hrest] at hs
    obtain ⟨need, hneed, hs⟩ := Option.map_eq_some_iff.mp hs
    rw [Prod.mk.injEq] at hs
    obtain ⟨rfl, rfl⟩ := hs
    rw [hneed] at hall
    exact (parseCopies_inBounds_iff (add_asInt32_sub_le (hcompl.need_le hneed))).mp hall.2
  · intro h
    have hcompl := h.half hres
    obtain ⟨hhead, hneed⟩ := hhalf.mpr hcompl
    refine ⟨?_, fun _ _ => hneed⟩
    rw [hcopies, List.forall_mem_append]
    refine ⟨hhead, ?_⟩
    cases hn : halfNeed g data.mem (asInt32 data.bytes.length) with
    | none =>
      intro c hc
      cases hc
    | some need =>
      rw [hn] at hrest
      exact (parseCopies_inBounds_iff (add_asInt32_sub_le (hcompl.need_le hn))).mpr (h.rest _ _ hrest)

end Cases

/-- One call. -/
theorem bounded_iff (config net : NetConfig) (g : HalfBuffer) (data : Seg) :
    Bounded config g data net ↔ (Takes config data net → KeepsRoom g data) := by
  by_cases htakes : Takes config data net
  · rw [forall_prop_of_true htakes]
    by_cases hres : Resumes g data
    · exact bounded_resumes_iff htakes hres
    · exact bounded_fresh_iff htakes hres
  · have hcopies : callCopies config g data net = [] := if_neg htakes
    exact ⟨fun _ h => absurd h htakes, fun _ => ⟨by simp [hcopies], fun h => absurd h htakes⟩⟩

/-! ## Runs -/

/-- The calls for the segments of a run; one that does not return ends it. -/
def machine (config : NetConfig) : Machine HalfBuffer (Seg × NetConfig) where
  init g := g = HalfBuffer.start
  step g l := (onDataLv1 config g l.1 l.2).map Prod.snd

/-- **Exact condition.** In a run from the start the bytes used stay within the buffer and
every call is in bounds, if and only if every segment taken leaves room. -/
theorem along_bounded_iff (config : NetConfig) (ls : List (Seg × NetConfig)) :
    ((machine config).Throughout (fun g => g.used ≤ halfBufferSize) .start ls ∧
      (machine config).Along (fun g l => Bounded config g l.1 l.2) .start ls) ↔
      (machine config).Along (fun g l => Takes config l.1 l.2 → KeepsRoom g l.1) .start ls := by
  simp only [bounded_iff]
  refine and_iff_right_of_imp fun h => Machine.throughout_of_along ?_ (Nat.zero_le _) h
  intro g l g' hg hroom hstep
  obtain ⟨r, hr, rfl⟩ := Option.map_eq_some_iff.mp hstep
  have hbounded := (bounded_iff config l.2 g l.1).mpr hroom
  rcases (onDataLv1_replays hr).used with hu | hu | ⟨c, hc, hu⟩
  · rw [hu]
    exact Nat.zero_le _
  · rw [hu]
    exact hg
  · rw [hu]
    exact (hbounded.copies c hc).dst

/-- The head of a quota message without a body. -/
def quotaHead : Bytes :=
  [0x01, 0x00, 0x00, 0x00, 0x00, 0x00, 0x00, 0x00, 0x01, 0x00, 0x00, 0x02, 0x03, 0x53, 0x00, 0x04, 0x00, 0x00,
    0x00, 0x00, 0x00, 0x00, 0x00, 0x00]

/-- That message, and 1025 bytes nothing is known of. -/
def longTail : Seg := ⟨quotaHead ++ List.replicate 1025 0, fun _ => 0⟩

theorem longTail_head {len : Nat} (h : sizeofCommonHead ≤ len) :
    getCommonHeadType longTail.mem len = some (.quota, 0) := by
  have hstarts : longTail.mem.Starts quotaHead := longTail.mem_starts.left
  rw [getCommonHeadType_len h, @getCommonHeadType_congr _ (Mem.ofBytes quotaHead)]
  · decide
  · intro i hi
    rw [hstarts i hi, Mem.starts_ofBytes quotaHead i hi]

theorem longTail_tail {i : Nat} (h : i < 1025) : longTail.mem.shift sizeofCommonHead i = 0 := by
  have hstarts : (longTail.mem.shift sizeofCommonHead).Starts (List.replicate 1025 0) := longTail.mem_starts.right
  rw [hstarts i (by rwa [List.length_replicate]), List.getElem_replicate]

/-- The loop passes the message and keeps the rest. -/
theorem longTail_leftOver : LeftOver longTail.mem 1049 1025 := by
  have hhead := @longTail_head 1049 (by decide)
  have hzero : ∀ i, i < sizeofCommonHead → longTail.mem.shift sizeofCommonHead i = (fun _ => 0 : Mem) i :=
    fun i hi => longTail_tail (Nat.lt_trans hi (by decide))
  have htail : getCommonHeadType (longTail.mem.shift sizeofCommonHead) 1025 = none := by
    rw [getCommonHeadType_congr hzero]
    decide
  have hmark : ¬ HasMark (longTail.mem.shift sizeofCommonHead) := by
    rw [hasMark_congr fun i hi => hzero i (Nat.lt_trans hi (by decide))]
    decide
  have hkeep : Keeps (longTail.mem.shift sizeofCommonHead) 1025 :=
    ⟨by decide, by simp [IsArbitrage, htail], by simp [messageLen, htail, hmark]⟩
  refine .pass (n := 1025) (k := sizeofCommonHead) ?_ ?_
  · simp [messageLen, hhead, not_hasMark hhead, indexLen, sizeofCommonHead]
  · have hleft := LeftOver.keep hkeep
    rw [htail] at hleft
    exact hleft

/-- **Counterexample.** The 1025 bytes are copied into a buffer of 1024. -/
theorem longTail_overflows : ¬ ∀ config ls,
    (machine config).Throughout (fun g => g.used ≤ halfBufferSize) .start ls ∧
      (machine config).Along (fun g l => Bounded config g l.1 l.2) .start ls := by
  intro h
  have hbounded := ((h ⟨0, 0, 0⟩ [(longTail, ⟨0, 0, 0⟩)]).2).1
  have hlogin : ¬ isLogin longTail.mem longTail.bytes.length := fun hl => by
    have hnone := (hl.not_shown sizeofCommonHead).2
    rw [longTail_head (Nat.le_refl _)] at hnone
    cases hnone
  have hroom := (bounded_iff _ _ _ _).mp hbounded ⟨by decide, hlogin⟩
  have hlen : longTail.bytes.length = 1049 := by
    rw [longTail, List.length_append, List.length_replicate]
    rfl
  have hre : asInt32 longTail.bytes.length = (1049 : Nat) := by
    rw [hlen]
    exact asInt32_ofNat (by omega)
  have hhead := @longTail_head 1049 (by decide)
  have hrest := @restOf_fresh .start longTail fun hr => Nat.lt_irrefl 0 hr.1
  rw [hre, asSize_ofNat (by omega), hhead] at hrest
  have hleaves := hroom.rest _ _ hrest 0 1025
  have hshown : Shown longTail.mem 1049 := .inr ⟨by decide, Option.isSome_of_eq_some hhead⟩
  have hle : 1025 ≤ halfBufferSize := by
    apply hleaves
    · exact ⟨Nat.zero_le _, nofun, fun _ => by simpa [indexLen] using hshown⟩
    · simpa [indexLen] using longTail_leftOver
  exact absurd hle (by decide)

end MdInfoSet.L2.Lv1Bounds
