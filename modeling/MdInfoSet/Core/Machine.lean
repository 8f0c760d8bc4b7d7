import Mathlib.Data.List.Basic
import Mathlib.Data.UInt

/-!
# Labelled machines, their runs and their invariants

A `Machine` is a set of initial states and a partial step function: `step s l`
is the state after the step labelled `l`, or `none` when that step cannot be
taken from `s`. Every choice a run makes (which thread moves, what it is
called with, a spurious failure) is in the label, so a schedule is a list of
labels and a run on it is a computation.

* `Inductive.reachable`: an inductive predicate holds in every reachable state;
  `run_history`: one that also speaks of the schedule so far.
* `Along`: the runs all of whose steps meet a condition on the state before the
  step and the label; `Throughout`: those all of whose states have a property.
* `Inevitable`: what comes to hold whichever of their steps the threads take;
  `inevitable_of_measure`.
* `Simulation.run`: a forward simulation turns a run into a run of the abstract
  machine on the observed labels (`Machine.trace`).
-/
namespace MdInfoSet

structure Machine (S L : Type) where
  init : S → Prop
  step : S → L → Option S

namespace Machine

variable {S L T K : Type}

/-- The state after the schedule `ls`, if every step of it can be taken. -/
def run (M : Machine S L) : S → List L → Option S
  | s, [] => some s
  | s, l :: ls => (M.step s l).bind fun s' => M.run s' ls

@[simp] theorem run_nil (M : Machine S L) (s : S) : M.run s [] = some s := rfl

theorem run_cons {M : Machine S L} {s t : S} {l : L} {ls : List L} :
    M.run s (l :: ls) = some t ↔ ∃ s', M.step s l = some s' ∧ M.run s' ls = some t := by
  simp only [run, Option.bind_eq_some_iff]

theorem run_append (M : Machine S L) (s : S) (l1 l2 : List L) :
    M.run s (l1 ++ l2) = (M.run s l1).bind fun s' => M.run s' l2 := by
  induction l1 generalizing s with
  | nil => rfl
  | cons l l1 ih =>
    simp only [List.cons_append, run]
    cases M.step s l with
    | none => rfl
    | some s' => simp [ih]

/-- `s` is reached by some schedule from an initial state. -/
def Reachable (M : Machine S L) (s : S) : Prop :=
  ∃ s₀ ls, M.init s₀ ∧ M.run s₀ ls = some s

structure Inductive (M : Machine S L) (P : S → Prop) : Prop where
  init : ∀ s, M.init s → P s
  step : ∀ s l s', P s → M.step s l = some s' → P s'

theorem Inductive.run {M : Machine S L} {P : S → Prop} (h : M.Inductive P) {s t : S} {ls : List L}
    (hs : P s) (hr : M.run s ls = some t) : P t := by
  induction ls generalizing s with
  | nil => simp only [run_nil, Option.some.injEq] at hr; exact hr ▸ hs
  | cons l ls ih =>
    obtain ⟨s', h1, h2⟩ := run_cons.mp hr
    exact ih (h.step s l s' hs h1) h2

theorem Inductive.reachable {M : Machine S L} {P : S → Prop} (h : M.Inductive P) {s : S}
    (hs : M.Reachable s) : P s := by
  obtain ⟨s₀, ls, hi, hr⟩ := hs
  exact h.run (h.init s₀ hi) hr

/-- A property of a state and of the schedule that led there, kept by each step. -/
theorem run_history {M : Machine S L} {P : List L → S → Prop}
    (hstep : ∀ ls s l s', P ls s → M.step s l = some s' → P (ls ++ [l]) s') {s t : S} {ls : List L}
    (hs : P [] s) (hr : M.run s ls = some t) : P ls t := by
  suffices h : ∀ pre s, P pre s → M.run s ls = some t → P (pre ++ ls) t from h [] s hs hr
  clear hs hr
  induction ls with
  | nil =>
    intro pre s hs hr
    rw [List.append_nil]
    exact Option.some.inj hr ▸ hs
  | cons l ls ih =>
    intro pre s hs hr
    obtain ⟨s', h1, h2⟩ := run_cons.mp hr
    rw [List.append_cons]
    exact ih (pre ++ [l]) s' (hstep pre s l s' hs h1) h2

/-! ## Runs whose steps meet a condition -/

/-- Every step of the schedule `ls` from `s` meets `ok`, a condition on the
state before the step and the label. -/
def Along (M : Machine S L) (ok : S → L → Prop) : S → List L → Prop
  | _, [] => True
  | s, l :: ls => ok s l ∧ ∀ s', M.step s l = some s' → M.Along ok s' ls

instance decidableAlong (M : Machine S L) (ok : S → L → Prop) [∀ s l, Decidable (ok s l)] :
    ∀ s ls, Decidable (M.Along ok s ls)
  | _, [] => .isTrue trivial
  | s, l :: ls =>
    match h : M.step s l with
    | none => decidable_of_iff (ok s l) ⟨fun ho => ⟨ho, fun _ hs => by simp [h] at hs⟩, fun ho => ho.1⟩
    | some s' =>
      have := decidableAlong M ok s' ls
      decidable_of_iff (ok s l ∧ M.Along ok s' ls)
        ⟨fun ho => ⟨ho.1, fun _ hs => by rw [h, Option.some.injEq] at hs; exact hs ▸ ho.2⟩,
          fun ho => ⟨ho.1, ho.2 s' h⟩⟩

theorem along_append {M : Machine S L} {ok : S → L → Prop} {s : S} {l1 l2 : List L} :
    M.Along ok s (l1 ++ l2) ↔ M.Along ok s l1 ∧ ∀ t, M.run s l1 = some t → M.Along ok t l2 := by
  induction l1 generalizing s with
  | nil => simp [Along]
  | cons l l1 ih =>
    simp only [List.cons_append, Along, ih, run_cons]
    constructor
    · intro ⟨hl, h⟩
      exact ⟨⟨hl, fun s' hs => (h s' hs).1⟩, fun t ⟨s', hs, hr⟩ => (h s' hs).2 t hr⟩
    · intro ⟨⟨hl, h⟩, h'⟩
      exact ⟨hl, fun s' hs => ⟨h s' hs, fun t hr => h' t ⟨s', hs, hr⟩⟩⟩

/-- An invariant that only the steps meeting `ok` keep, over a run of such steps. -/
theorem run_along {M : Machine S L} {ok : S → L → Prop} {P : S → Prop}
    (hstep : ∀ s l s', P s → ok s l → M.step s l = some s' → P s') {s t : S} {ls : List L}
    (hs : P s) (hok : M.Along ok s ls) (hr : M.run s ls = some t) : P t := by
  induction ls generalizing s with
  | nil => simp only [run_nil, Option.some.injEq] at hr; exact hr ▸ hs
  | cons l ls ih =>
    obtain ⟨s', h1, h2⟩ := run_cons.mp hr
    exact ih (hstep s l s' hs hok.1 h1) (hok.2 s' h1) h2

/-- A function that commutes with the steps meeting `ok` commutes with a run of such steps. -/
theorem run_commute {M : Machine S L} {ok : S → L → Prop} {f : S → S}
    (hstep : ∀ s l, ok s l → M.step (f s) l = (M.step s l).map f) {s : S} {ls : List L} (hok : M.Along ok s ls) :
    M.run (f s) ls = (M.run s ls).map f := by
  induction ls generalizing s with
  | nil => rfl
  | cons l ls ih =>
    rw [run, run, hstep s l hok.1]
    cases h : M.step s l with
    | none => rfl
    | some s' => exact ih (hok.2 s' h)

/-- `P` holds in every state the schedule `ls` from `s` goes through. -/
def Throughout (M : Machine S L) (P : S → Prop) (s : S) (ls : List L) : Prop :=
  ∀ pre t, pre <+: ls → M.run s pre = some t → P t

theorem throughout_cons {M : Machine S L} {P : S → Prop} {s : S} {l : L} {ls : List L} :
    M.Throughout P s (l :: ls) ↔ P s ∧ ∀ s', M.step s l = some s' → M.Throughout P s' ls := by
  constructor
  · refine fun h => ⟨h [] s List.nil_prefix rfl, fun s' hs pre t hpre hr => ?_⟩
    exact h (l :: pre) t (List.cons_prefix_cons.mpr ⟨rfl, hpre⟩) (run_cons.mpr ⟨s', hs, hr⟩)
  · intro ⟨hP, h⟩ pre t hpre hr
    cases pre with
    | nil => exact Option.some.inj hr ▸ hP
    | cons k pre =>
      obtain ⟨rfl, hpre'⟩ := List.cons_prefix_cons.mp hpre
      obtain ⟨s', hs, hr'⟩ := run_cons.mp hr
      exact h s' hs pre t hpre' hr'

theorem throughout_of_along {M : Machine S L} {ok : S → L → Prop} {P : S → Prop}
    (hstep : ∀ s l s', P s → ok s l → M.step s l = some s' → P s') {s : S} {ls : List L} (hs : P s)
    (hok : M.Along ok s ls) : M.Throughout P s ls := by
  induction ls generalizing s with
  | nil =>
    intro pre t hpre hr
    rw [List.prefix_nil.mp hpre] at hr
    exact Option.some.inj hr ▸ hs
  | cons l ls ih =>
    rw [throughout_cons]
    exact ⟨hs, fun s' h => ih (hstep s l s' hs hok.1 h) (hok.2 s' h)⟩

/-- Where one step keeps `P` exactly if it meets `ok`, a run is in `P` throughout exactly if
all of its steps meet `ok`. -/
theorem throughout_iff_along {M : Machine S L} {ok : S → L → Prop} {I P : S → Prop}
    (hI : ∀ s l s', I s → M.step s l = some s' → I s')
    (hstep : ∀ s l s', I s → P s → M.step s l = some s' → (P s' ↔ ok s l)) {s t : S} {ls : List L}
    (hs : I s) (hP : P s) (hr : M.run s ls = some t) : M.Throughout P s ls ↔ M.Along ok s ls := by
  induction ls generalizing s with
  | nil =>
    refine ⟨fun _ => trivial, fun _ pre t hpre hr => ?_⟩
    rw [List.prefix_nil.mp hpre] at hr
    exact Option.some.inj hr ▸ hP
  | cons l ls ih =>
    obtain ⟨s', h1, h2⟩ := run_cons.mp hr
    have hiff := hstep s l s' hs hP h1
    rw [throughout_cons]
    constructor
    · rintro ⟨-, h⟩
      have hrest := h s' h1
      have hP' := hrest [] s' List.nil_prefix rfl
      refine ⟨hiff.mp hP', fun s'' h3 => ?_⟩
      rw [h1, Option.some.injEq] at h3
      exact h3 ▸ (ih (hI s l s' hs h1) hP' h2).mp hrest
    · intro ⟨hok, h⟩
      refine ⟨hP, fun s'' h3 => ?_⟩
      have h4 := h s'' h3
      rw [h1, Option.some.injEq] at h3
      subst h3
      exact (ih (hI s l s' hs h1) (hiff.mpr hok) h2).mpr h4

/-! ## What is bound to happen -/

/-- Until `P` holds there is a step that meets `own`, and whichever such steps are taken,
`P` holds after finitely many of them. -/
inductive Inevitable (M : Machine S L) (own : S → L → Prop) (P : S → Prop) : S → Prop where
  | here {s : S} (h : P s) : Inevitable M own P s
  | next {s : S} (can : ∃ l s', own s l ∧ M.step s l = some s')
    (all : ∀ l s', own s l → M.step s l = some s' → Inevitable M own P s') : Inevitable M own P s

/-- While `P` does not hold, some step can be taken, and each one makes `measure` smaller. -/
theorem inevitable_of_measure {M : Machine S L} {own : S → L → Prop} {I P : S → Prop} (measure : S → Nat)
    (hstep : ∀ s, I s → P s ∨ (∃ l s', own s l ∧ M.step s l = some s') ∧
      ∀ l s', own s l → M.step s l = some s' → I s' ∧ measure s' < measure s)
    {s : S} (hs : I s) : M.Inevitable own P s := by
  generalize hn : measure s = n
  induction n using Nat.strongRecOn generalizing s with
  | ind n ih =>
    rcases hstep s hs with hP | ⟨hcan, hall⟩
    · exact .here hP
    · refine .next hcan fun l s' hl h => ?_
      obtain ⟨hs', hlt⟩ := hall l s' hl h
      exact ih (measure s') (hn ▸ hlt) hs' rfl

/-! ## Forward simulation -/

/-- What an observer of the schedule `ls` from `s` sees: the abstract label of
each step that has one. -/
def trace (M : Machine S L) (obs : S → L → Option K) : S → List L → List K
  | _, [] => []
  | s, l :: ls => (obs s l).toList ++ ((M.step s l).elim [] fun s' => M.trace obs s' ls)

/-- From `a` the machine can follow an observed label, or stay where it is when
nothing is observed, to a state with `P`. -/
def Follows (A : Machine T K) (a : T) (P : T → Prop) : Option K → Prop
  | none => P a
  | some k => ∃ a', A.step a k = some a' ∧ P a'

/-- `R` relates each concrete state to an abstract one, and every concrete step
is matched by the abstract step it is observed as, or by none. -/
structure Simulation (M : Machine S L) (A : Machine T K) (obs : S → L → Option K)
    (R : S → T → Prop) : Prop where
  step : ∀ s l s' a, R s a → M.step s l = some s' → A.Follows a (R s') (obs s l)

/-- A run is matched by the abstract run on its trace. -/
theorem Simulation.run {M : Machine S L} {A : Machine T K} {obs : S → L → Option K}
    {R : S → T → Prop} (h : M.Simulation A obs R) {s s' : S} {a : T} {ls : List L} (hR : R s a)
    (hr : M.run s ls = some s') : ∃ a', A.run a (M.trace obs s ls) = some a' ∧ R s' a' := by
  induction ls generalizing s a with
  | nil =>
    simp only [run_nil, Option.some.injEq] at hr
    exact ⟨a, rfl, hr ▸ hR⟩
  | cons l ls ih =>
    obtain ⟨s1, h1, h2⟩ := run_cons.mp hr
    have hst := h.step s l s1 a hR h1
    simp only [trace, h1, Option.elim_some]
    cases ho : obs s l with
    | none =>
      rw [ho] at hst
      simpa using ih hst h2
    | some k =>
      rw [ho] at hst
      obtain ⟨a1, ha, hR1⟩ := hst
      obtain ⟨a', h3, h4⟩ := ih hR1 h2
      exact ⟨a', by simp [Machine.run, ha, h3], h4⟩

end Machine

end MdInfoSet
