import Mathlib.Data.List.Basic
import Mathlib.Data.UInt

/-!
# Searching positions

`first good pos stop` is the first position in a range with a property. A run is a longest
stretch of such positions, and not an empty one.

* `first_some`, `first_none`: what a search comes out with.
* `RunsBelow.append`: a scan that goes from run to run collects all of them in order.
-/
namespace MdInfoSet.Search

variable {good : Nat → Bool} {pos stop i j n : Nat} {spans : List (Nat × Nat)}

def first (good : Nat → Bool) (pos stop : Nat) : Option Nat := (List.range' pos (stop - pos)).find? good

theorem first_some :
    first good pos stop = some i ↔ pos ≤ i ∧ i < stop ∧ good i = true ∧ ∀ k, pos ≤ k → k < i → good k = false := by
  rw [first, List.find?_range'_eq_some]
  constructor
  · intro ⟨hgood, hmem, hbefore⟩
    rw [List.mem_range'_1] at hmem
    exact ⟨hmem.1, by omega, hgood, fun k hk hlt => by simpa using hbefore k hk hlt⟩
  · intro ⟨hle, hlt, hgood, hbefore⟩
    exact ⟨hgood, List.mem_range'_1.mpr (by omega), fun k hk hki => by simp [hbefore k hk hki]⟩

theorem first_none : first good pos stop = none ↔ ∀ k, pos ≤ k → k < stop → good k = false := by
  rw [first, List.find?_range'_eq_none]
  constructor
  · intro h k hk hlt
    simpa using h k hk (by omega)
  · intro h k hk hlt
    simp [h k hk (by omega)]

/-! ## Runs -/

structure IsRun (good : Nat → Bool) (i j : Nat) : Prop where
  lt : i < j
  inside : ∀ k, i ≤ k → k < j → good k = true
  before : ∀ k, k + 1 = i → good k = false
  behind : good j = false

/-- All the runs that start below `n`, in order. -/
structure RunsBelow (good : Nat → Bool) (n : Nat) (spans : List (Nat × Nat)) : Prop where
  ordered : spans.Pairwise (fun a b => a.2 < b.1)
  mem_iff : ∀ i j, (i, j) ∈ spans ↔ IsRun good i j ∧ i < n

/-- All of them. -/
structure Runs (good : Nat → Bool) (spans : List (Nat × Nat)) : Prop where
  ordered : spans.Pairwise (fun a b => a.2 < b.1)
  mem_iff : ∀ i j, (i, j) ∈ spans ↔ IsRun good i j

theorem runsBelow_zero : RunsBelow good 0 [] := ⟨.nil, by simp⟩

/-- Two runs of which one does not start behind the end of the other are the same. -/
theorem IsRun.eq {i' j' : Nat} (h : IsRun good i j) (h' : IsRun good i' j') (hle : i ≤ i') (hlt : i' < j) :
    i' = i ∧ j' = j := by
  have hstart : i' = i := by
    by_contra hne
    have hin := h.inside (i' - 1) (by omega) (by omega)
    rw [h'.before (i' - 1) (by omega)] at hin
    cases hin
  refine ⟨hstart, ?_⟩
  rcases Nat.lt_trichotomy j' j with hj | hj | hj
  · have hin := h.inside j' (by have := h'.lt; omega) hj
    rw [h'.behind] at hin
    cases hin
  · exact hj
  · have hin := h'.inside j (by have := h.lt; omega) hj
    rw [h.behind] at hin
    cases hin

/-- The next run, with nothing good since `n`. -/
theorem RunsBelow.append (h : RunsBelow good n spans) (hni : n ≤ i) (hgap : ∀ k, n ≤ k → k < i → good k = false)
    (hrun : IsRun good i j) : RunsBelow good j (spans ++ [(i, j)]) := by
  refine ⟨?_, fun i' j' => ?_⟩
  · rw [List.pairwise_append]
    refine ⟨h.ordered, List.pairwise_singleton _ _, ?_⟩
    intro ⟨a, b⟩ hab x hx
    rw [List.mem_singleton] at hx
    subst hx
    obtain ⟨hold, hlt⟩ := (h.mem_iff a b).mp hab
    by_contra hle
    rcases Nat.lt_or_ge i b with hib | hbi
    · have := (hold.eq hrun (by omega) hib).1
      omega
    · have hin := hrun.inside b (by omega) (by have := hrun.lt; omega)
      rw [hold.behind] at hin
      cases hin
  · rw [List.mem_append, List.mem_singleton, h.mem_iff, Prod.mk.injEq]
    constructor
    · rintro (⟨hold, hlt⟩ | ⟨rfl, rfl⟩)
      · exact ⟨hold, by have := hrun.lt; omega⟩
      · exact ⟨hrun, hrun.lt⟩
    · intro ⟨hnew, hlt⟩
      rcases Nat.lt_or_ge i' n with hin | hout
      · exact .inl ⟨hnew, hin⟩
      · rcases Nat.lt_or_ge i' i with hbefore | hafter
        · have hstart := hnew.inside i' (Nat.le_refl _) hnew.lt
          rw [hgap i' hout hbefore] at hstart
          cases hstart
        · exact .inr (hrun.eq hnew hafter hlt)

/-- With nothing good from `n` on there are no further runs. -/
theorem RunsBelow.runs (h : RunsBelow good n spans) (hend : ∀ k, n ≤ k → good k = false) : Runs good spans := by
  refine ⟨h.ordered, fun i j => (h.mem_iff i j).trans ⟨And.left, fun hrun => ⟨hrun, ?_⟩⟩⟩
  by_contra hle
  have hstart := hrun.inside i (Nat.le_refl _) hrun.lt
  rw [hend i (by omega)] at hstart
  cases hstart

end MdInfoSet.Search
