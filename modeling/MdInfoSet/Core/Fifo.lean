import MdInfoSet.Core.Machine

/-!
# The bounded FIFO queue

The abstract machine a ring buffer is compared with: a list of at most `cap`
items, an operation that adds one at the back, one that takes one from the
front, and one that reports that there is none.

* `run_conserves`: over a run, what was in the queue followed by what was added
  is what was taken followed by what is left.
* `run_length_le`: the queue stays within its capacity.
-/
namespace MdInfoSet.Fifo

variable {α : Type}

inductive Op (α : Type) where
  | enq (x : α)
  | deq (x : α)
  | empty

def step [DecidableEq α] (cap : Nat) (q : List α) : Op α → Option (List α)
  | .enq x => if q.length < cap then some (q ++ [x]) else none
  | .deq x => if q.head? = some x then some q.tail else none
  | .empty => if q = [] then some q else none

def machine [DecidableEq α] (cap : Nat) : Machine (List α) (Op α) where
  init q := q = []
  step := step cap

/-- The items added, and the items taken, in order. -/
def enqs : List (Op α) → List α
  | [] => []
  | .enq x :: ops => x :: enqs ops
  | _ :: ops => enqs ops

def deqs : List (Op α) → List α
  | [] => []
  | .deq x :: ops => x :: deqs ops
  | _ :: ops => deqs ops

theorem enqs_append (a b : List (Op α)) : enqs (a ++ b) = enqs a ++ enqs b := by
  induction a with
  | nil => rfl
  | cons op a ih => cases op <;> simp [enqs, ih]

theorem deqs_append (a b : List (Op α)) : deqs (a ++ b) = deqs a ++ deqs b := by
  induction a with
  | nil => rfl
  | cons op a ih => cases op <;> simp [deqs, ih]

variable [DecidableEq α] {cap : Nat}

theorem step_enq {q q' : List α} {x : α} (h : (machine cap).step q (.enq x) = some q') :
    q.length < cap ∧ q' = q ++ [x] := by
  simp only [machine, step, Option.ite_none_right_eq_some, Option.some.injEq] at h
  exact ⟨h.1, h.2.symm⟩

theorem step_deq {q q' : List α} {x : α} (h : (machine cap).step q (.deq x) = some q') : q = x :: q' := by
  simp only [machine, step, Option.ite_none_right_eq_some, Option.some.injEq] at h
  cases q with
  | nil => simp at h
  | cons y q => simp_all

theorem step_empty {q q' : List α} (h : (machine cap).step q .empty = some q') : q = [] ∧ q' = [] := by
  simp only [machine, step, Option.ite_none_right_eq_some, Option.some.injEq] at h
  exact ⟨h.1, h.2 ▸ h.1⟩

theorem run_conserves {q q' : List α} {ops : List (Op α)} (h : (machine cap).run q ops = some q') :
    q ++ enqs ops = deqs ops ++ q' := by
  induction ops generalizing q with
  | nil =>
    simp only [Machine.run_nil, Option.some.injEq] at h
    simp [enqs, deqs, h]
  | cons op ops ih =>
    obtain ⟨q1, h1, h2⟩ := Machine.run_cons.mp h
    have hr := ih h2
    cases op with
    | enq x =>
      obtain ⟨-, rfl⟩ := step_enq h1
      simpa [enqs, deqs] using hr
    | deq x =>
      obtain rfl := step_deq h1
      simpa [enqs, deqs] using hr
    | empty =>
      obtain ⟨rfl, rfl⟩ := step_empty h1
      simpa [enqs, deqs] using hr

theorem run_length_le {q q' : List α} {ops : List (Op α)} (h : (machine cap).run q ops = some q')
    (hq : q.length ≤ cap) : q'.length ≤ cap := by
  induction ops generalizing q with
  | nil =>
    simp only [Machine.run_nil, Option.some.injEq] at h
    exact h ▸ hq
  | cons op ops ih =>
    obtain ⟨q1, h1, h2⟩ := Machine.run_cons.mp h
    refine ih h2 ?_
    cases op with
    | enq x =>
      obtain ⟨hlt, rfl⟩ := step_enq h1
      rw [List.length_append, List.length_singleton]; omega
    | deq x =>
      obtain rfl := step_deq h1
      rw [List.length_cons] at hq; omega
    | empty =>
      obtain ⟨-, rfl⟩ := step_empty h1
      exact Nat.zero_le _

end MdInfoSet.Fifo
