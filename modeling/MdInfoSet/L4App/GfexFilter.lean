import MdInfoSet.L4App.Filter

/-!
# The GFEX quote filter

`GFEXQuota::IsValidQuota` (src/dz_gfex_md/src/dz_gfex_md.cpp:717-744) keeps one
`QuotaInfo` entry for each instrument. `OnData_lv2` calls it with level 5,
`HandleLv1Quota` with level 1, both on the same entry.

* `isValidQuota_ok`, `isValidQuota_rejected`, `isValidQuota_repeat`: what each
  verdict means, the only facts about the body the other modules use.
* **Monotone stream.** Over every interleaving of the two feeds the accepted
  calls never go back in time or volume, the entry is the last accepted call,
  and a rejected call leaves it alone (`merged_stream_monotone`).
-/
namespace MdInfoSet.L4.GfexFilter

open MdInfoSet.L4.Filter

/-- mirrors src/dz_gfex_md/src/dz_gfex_md.h:109-117 -/
structure QuotaInfo where
  time : UInt64
  volume : UInt64
  ap1 : Float
  bp1 : Float
  av1 : UInt32
  bv1 : UInt32
  level : UInt32
  deriving DecidableEq

def QuotaInfo.zero : QuotaInfo := ⟨0, 0, 0, 0, 0, 0, 0⟩

/-- mirrors src/dz_gfex_md/src/dz_gfex_md.cpp:717-744
Returns the verdict and the entry afterwards. -/
def isValidQuota (cache : QuotaInfo) (extime vol : UInt64) (level : UInt32) (ap1 bp1 : Float)
    (av1 bv1 : UInt32) : ComResult × QuotaInfo :=
  let accepted := (ComResult.ok, ⟨extime, vol, ap1, bp1, av1, bv1, level⟩)
  if cache.level ≠ 0 then
    if extime < cache.time then (.timeError, cache)
    else if vol < cache.volume then (.volError, cache)
    else if (cache.level = 5 ∧ level = 1) ∧ vol = cache.volume ∧ cache.av1 = av1 ∧ cache.bv1 = bv1 ∧
        priceCom cache.ap1 ap1 ∧ priceCom cache.bp1 bp1 then (.repeatL1, cache)
    else accepted
  else accepted

section Verdicts

variable {cache : QuotaInfo} {extime vol : UInt64} {level : UInt32} {ap1 bp1 : Float} {av1 bv1 : UInt32}

/-- An accepted call becomes the entry, and does not go back behind it. -/
theorem isValidQuota_ok (h : (isValidQuota cache extime vol level ap1 bp1 av1 bv1).1 = .ok) :
    (isValidQuota cache extime vol level ap1 bp1 av1 bv1).2 =
      ⟨extime, vol, ap1, bp1, av1, bv1, level⟩ ∧
    (cache.level ≠ 0 → cache.time ≤ extime ∧ cache.volume ≤ vol) := by
  unfold isValidQuota at h ⊢
  dsimp only at h ⊢
  split at h
  · rename_i hl
    split at h
    · cases h
    · rename_i ht
      split at h
      · cases h
      · rename_i hv
        split at h
        · cases h
        · rename_i hr
          rw [if_pos hl, if_neg ht, if_neg hv, if_neg hr]
          exact ⟨rfl, fun _ => ⟨UInt64.not_lt.mp ht, UInt64.not_lt.mp hv⟩⟩
  · rename_i hl
    rw [if_neg hl]
    exact ⟨rfl, fun hne => absurd hne hl⟩

/-- Every other verdict leaves the entry as it was. -/
theorem isValidQuota_rejected (h : (isValidQuota cache extime vol level ap1 bp1 av1 bv1).1 ≠ .ok) :
    (isValidQuota cache extime vol level ap1 bp1 av1 bv1).2 = cache := by
  unfold isValidQuota at h ⊢
  dsimp only at h ⊢
  repeat' split
  all_goals simp_all

/-- When a quote is dropped as a repetition. -/
theorem isValidQuota_repeat (h : (isValidQuota cache extime vol level ap1 bp1 av1 bv1).1 = .repeatL1) :
    cache.level = 5 ∧ level = 1 ∧ vol = cache.volume ∧ cache.av1 = av1 ∧ cache.bv1 = bv1 ∧
      priceCom cache.ap1 ap1 ∧ priceCom cache.bp1 bp1 := by
  unfold isValidQuota at h
  dsimp only at h
  split at h
  · split at h
    · cases h
    · split at h
      · cases h
      · split at h
        · rename_i hr
          exact ⟨hr.1.1, hr.1.2, hr.2⟩
        · cases h
  · cases h

/-- `COM_RESULT_REPEAT_L2` is never returned here. -/
theorem isValidQuota_ne_repeatL2 : (isValidQuota cache extime vol level ap1 bp1 av1 bv1).1 ≠ .repeatL2 := by
  unfold isValidQuota
  dsimp only
  repeat' split
  all_goals nofun

end Verdicts

/-! ## Two feeds on one entry -/

inductive Feed where
  | lv1
  | lv2
  deriving DecidableEq

/-- The level each feed passes. -/
def Feed.level : Feed → UInt32
  | .lv1 => 1
  | .lv2 => 5

theorem Feed.level_ne_zero (f : Feed) : f.level ≠ 0 := by
  cases f <;> decide

/-- The arguments of one call. -/
structure Call where
  feed : Feed
  extime : UInt64
  vol : UInt64
  ap1 : Float
  bp1 : Float
  av1 : UInt32
  bv1 : UInt32
  deriving DecidableEq

/-- The entry that records a call. -/
def Call.entry (c : Call) : QuotaInfo := ⟨c.extime, c.vol, c.ap1, c.bp1, c.av1, c.bv1, c.feed.level⟩

/-- One instrument: its entry, and the calls accepted so far. -/
structure Merged where
  cache : QuotaInfo
  accepted : List Call

def Call.verdict (c : Call) (cache : QuotaInfo) : ComResult × QuotaInfo :=
  isValidQuota cache c.extime c.vol c.feed.level c.ap1 c.bp1 c.av1 c.bv1

def Merged.step (s : Merged) (c : Call) : Merged where
  cache := (c.verdict s.cache).2
  accepted := if (c.verdict s.cache).1 = .ok then s.accepted ++ [c] else s.accepted

def machine : Machine Merged Call where
  init s := s = ⟨QuotaInfo.zero, []⟩
  step s c := some (s.step c)

/-- The entry is the last accepted call, which no earlier one is ahead of. -/
structure Inv (s : Merged) : Prop where
  last : s.cache = (s.accepted.getLast?.map Call.entry).getD QuotaInfo.zero
  behind : ∀ c ∈ s.accepted, c.extime ≤ s.cache.time ∧ c.vol ≤ s.cache.volume
  sorted : s.accepted.Pairwise fun c c' => c.extime ≤ c'.extime ∧ c.vol ≤ c'.vol

/-- Once a call was accepted the entry has a level. -/
theorem Inv.level_ne_zero {s : Merged} (h : Inv s) (hne : s.accepted ≠ []) : s.cache.level ≠ 0 := by
  rw [h.last, List.getLast?_eq_getLast_of_ne_nil hne]
  exact Feed.level_ne_zero _

theorem step_inv {s : Merged} (c : Call) (h : Inv s) : Inv (s.step c) := by
  by_cases hok : (c.verdict s.cache).1 = .ok
  · obtain ⟨hentry, hle⟩ := isValidQuota_ok hok
    have hcache : (s.step c).cache = c.entry := hentry
    have hacc : (s.step c).accepted = s.accepted ++ [c] := if_pos hok
    -- every accepted call is behind the old entry, hence behind the new one
    have hall : ∀ c' ∈ s.accepted, c'.extime ≤ c.extime ∧ c'.vol ≤ c.vol := fun c' hc' => by
      obtain ⟨ht, hv⟩ := hle (h.level_ne_zero (List.ne_nil_of_mem hc'))
      obtain ⟨ht', hv'⟩ := h.behind c' hc'
      exact ⟨UInt64.le_trans ht' ht, UInt64.le_trans hv' hv⟩
    refine ⟨by simp [hcache, hacc], fun c' hc' => ?_, ?_⟩
    · rw [hcache]
      rw [hacc, List.mem_append, List.mem_singleton] at hc'
      rcases hc' with hc' | rfl
      · exact hall c' hc'
      · exact ⟨UInt64.le_refl _, UInt64.le_refl _⟩
    · rw [hacc, List.pairwise_append]
      refine ⟨h.sorted, List.pairwise_singleton _ _, fun c' hc' x hx => ?_⟩
      rw [List.mem_singleton] at hx
      exact hx ▸ hall c' hc'
  · have hs : s.step c = s := by
      simp only [Merged.step, if_neg hok]
      rw [show (c.verdict s.cache).2 = s.cache from isValidQuota_rejected hok]
    rw [hs]
    exact h

theorem inv_inductive : machine.Inductive Inv where
  init := by
    rintro s rfl
    exact ⟨rfl, nofun, List.Pairwise.nil⟩
  step := by
    intro s c s' h hs
    simp only [machine, Option.some.injEq] at hs
    exact hs ▸ step_inv c h

/-- **Monotone stream.** After any interleaving of whole calls of the two feeds
on a zeroed entry. -/
theorem merged_stream_monotone {cs : List Call} {s : Merged}
    (hr : machine.run ⟨QuotaInfo.zero, []⟩ cs = some s) :
    (s.accepted.Pairwise fun c c' => c.extime ≤ c'.extime ∧ c.vol ≤ c'.vol) ∧
    s.cache = (s.accepted.getLast?.map Call.entry).getD QuotaInfo.zero ∧
    ∀ c : Call, (c.verdict s.cache).1 ≠ .ok → (c.verdict s.cache).2 = s.cache := by
  have h := inv_inductive.run (inv_inductive.init _ rfl) hr
  exact ⟨h.sorted, h.last, fun c hc => isValidQuota_rejected hc⟩

/-- A Level-2 quote, the same quote on Level 1 (dropped), and an older one (dropped). -/
theorem merged_stream_monotone_repeat :
    ∃ s, machine.run ⟨QuotaInfo.zero, []⟩
        [⟨.lv2, 7, 3, 2, 1, 4, 5⟩, ⟨.lv1, 8, 3, 2, 1, 4, 5⟩, ⟨.lv1, 6, 3, 2, 1, 4, 5⟩] = some s ∧
      s.accepted.length = 1 ∧
      (s.accepted.Pairwise fun c c' => c.extime ≤ c'.extime ∧ c.vol ≤ c'.vol) ∧
      s.cache = (s.accepted.getLast?.map Call.entry).getD QuotaInfo.zero :=
  have h := @merged_stream_monotone [⟨.lv2, 7, 3, 2, 1, 4, 5⟩, ⟨.lv1, 8, 3, 2, 1, 4, 5⟩,
    ⟨.lv1, 6, 3, 2, 1, 4, 5⟩] _ rfl
  ⟨_, rfl, by decide, h.1, h.2.1⟩

end MdInfoSet.L4.GfexFilter
