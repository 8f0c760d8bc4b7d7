import Mathlib.Data.UInt
import Mathlib.Logic.Basic

/-!
# Loops that may not end

A loop is one function, its round: from a state it goes on with a next state or
leaves with a result. `Ends` says that it leaves after finitely many rounds, and
with what.

* `ends_of_decreasing`: rounds that keep an invariant and go on only with less of a
  measure come to an end, and `ends_of_rounds` says with what.
* `Throughout`: what holds in every state the loop goes through, whether it ends or not.
* `not_ends_of_next`: rounds that keep an invariant and always go on do not.
-/
namespace MdInfoSet.WhileLoop

/-- How one round ends. -/
inductive Round (S R : Type) where
  | next (s : S)
  | leave (r : R)

variable {S R : Type} {round : S → Round S R} {s s' : S} {r r' : R}

/-- The result, if the loop leaves within `fuel` rounds. -/
def run (round : S → Round S R) : Nat → S → Option R
  | 0, _ => none
  | fuel + 1, s =>
    match round s with
    | .next s' => run round fuel s'
    | .leave r => some r

def Ends (round : S → Round S R) (s : S) (r : R) : Prop := ∃ fuel, run round fuel s = some r

theorem ends_leave (h : round s = .leave r) : Ends round s r' ↔ r' = r := by
  constructor
  · intro ⟨fuel, hrun⟩
    cases fuel with
    | zero => cases hrun
    | succ fuel => simpa [run, h, eq_comm] using hrun
  · intro hr
    exact ⟨1, by simp [run, h, hr]⟩

theorem ends_next (h : round s = .next s') : Ends round s r ↔ Ends round s' r := by
  constructor
  · intro ⟨fuel, hrun⟩
    cases fuel with
    | zero => cases hrun
    | succ fuel => exact ⟨fuel, by simpa [run, h] using hrun⟩
  · intro ⟨fuel, hrun⟩
    exact ⟨fuel + 1, by simpa [run, h] using hrun⟩

theorem not_ends_of_next (inv : S → Prop) (hround : ∀ s, inv s → ∃ s', round s = .next s' ∧ inv s')
    (hs : inv s) : ¬ Ends round s r := by
  intro ⟨fuel, hrun⟩
  induction fuel generalizing s with
  | zero => cases hrun
  | succ fuel ih =>
    obtain ⟨s', hnext, hs'⟩ := hround s hs
    exact ih hs' (by simpa [run, hnext] using hrun)

theorem not_ends_of_next_self (h : round s = .next s) : ¬ Ends round s r := by
  refine not_ends_of_next (· = s) ?_ rfl
  rintro s rfl
  exact ⟨s, h, rfl⟩

theorem ends_of_decreasing (inv : S → Prop) (measure : S → Nat)
    (hround : ∀ s s', inv s → round s = .next s' → inv s' ∧ measure s' < measure s) (hs : inv s) :
    ∃ r, Ends round s r := by
  induction hn : measure s using Nat.strongRecOn generalizing s with
  | _ n ih =>
    cases hr : round s with
    | leave r => exact ⟨r, (ends_leave hr).mpr rfl⟩
    | next s' =>
      obtain ⟨hinv, hlt⟩ := hround s s' hs hr
      obtain ⟨r, hends⟩ := ih (measure s') (hn ▸ hlt) hinv rfl
      exact ⟨r, (ends_next hr).mpr hends⟩

/-- Each round keeps an invariant and goes on with less, or leaves with a result that is good. -/
theorem ends_of_rounds (inv : S → Prop) (measure : S → Nat) {post : R → Prop}
    (hround : ∀ s, inv s → (∃ s', round s = .next s' ∧ inv s' ∧ measure s' < measure s) ∨
      ∃ r, round s = .leave r ∧ post r) (hs : inv s) : ∃ r, Ends round s r ∧ post r := by
  induction hn : measure s using Nat.strongRecOn generalizing s with
  | _ n ih =>
    rcases hround s hs with ⟨s', hnext, hs', hlt⟩ | ⟨r, hleave, hpost⟩
    · obtain ⟨r, hends, hpost⟩ := ih (measure s') (hn ▸ hlt) hs' rfl
      exact ⟨r, (ends_next hnext).mpr hends, hpost⟩
    · exact ⟨r, (ends_leave hleave).mpr rfl, hpost⟩

/-! ## The states of a loop -/

/-- The loop gets from the first state to the second. -/
inductive Visits (round : S → Round S R) : S → S → Prop where
  | here (s : S) : Visits round s s
  | next {s s' t : S} (h : round s = .next s') (rest : Visits round s' t) : Visits round s t

/-- `P` holds in every state the loop goes through from `s` on. -/
def Throughout (round : S → Round S R) (P : S → Prop) (s : S) : Prop := ∀ t, Visits round s t → P t

variable {P : S → Prop}

theorem visits_leave (h : round s = .leave r) : Visits round s s' ↔ s' = s := by
  constructor
  · intro hv
    cases hv with
    | here => rfl
    | next hn => rw [h] at hn; cases hn
  · rintro rfl
    exact .here _

theorem Visits.trans {t : S} (h : Visits round s s') (h' : Visits round s' t) : Visits round s t := by
  induction h with
  | here => exact h'
  | next hn _ ih => exact .next hn (ih h')

theorem visits_next (h : round s = .next s') {t : S} : Visits round s t ↔ t = s ∨ Visits round s' t := by
  constructor
  · intro hv
    cases hv with
    | here => exact .inl rfl
    | next hn hrest =>
      rw [h] at hn
      cases hn
      exact .inr hrest
  · rintro (rfl | hv)
    · exact .here _
    · exact .next h hv

theorem ends_of_visits (h : Visits round s s') : Ends round s r ↔ Ends round s' r := by
  induction h with
  | here => exact Iff.rfl
  | next hn _ ih => exact (ends_next hn).trans ih

theorem throughout_leave (h : round s = .leave r) : Throughout round P s ↔ P s := by
  simp [Throughout, visits_leave h]

theorem throughout_next (h : round s = .next s') : Throughout round P s ↔ P s ∧ Throughout round P s' := by
  simp [Throughout, visits_next h]

end MdInfoSet.WhileLoop
