import Mathlib.Data.List.TakeWhile
import Mathlib.Data.UInt

/-!
# Loops that leave early

A loop over `l` that leaves at the first element without `p` treats
`l.takeWhile p`; what it loses is in `l.dropWhile p`. `pairwise_iff_dropWhile`
says the same by the order of the elements: nothing with `q` is lost if and only
if no element with `q` comes behind one without `p`.

* `map_takeWhile_filter_iff`: when leaving early makes no difference.
* `dropWhile_takeWhile_eq_iff`: the same for a loop that also starts late, and goes
  on from then on whatever follows.
-/
namespace MdInfoSet.EarlyExit

variable {α : Type} {p q r : α → Bool}

/-- Where `q` implies `p`: nothing with `q` is behind the first without `p`. -/
theorem pairwise_iff_dropWhile (hqp : ∀ a, q a = true → p a = true) (l : List α) :
    l.Pairwise (fun a b => p a = false → q b = false) ↔ ∀ b ∈ l.dropWhile p, q b = false := by
  induction l with
  | nil => simp
  | cons a l ih =>
    rw [List.pairwise_cons]
    cases hp : p a with
    | true =>
      rw [List.dropWhile_cons_of_pos hp, ← ih]
      exact ⟨fun h => h.2, fun h => ⟨fun _ _ hf => absurd hf (by simp), h⟩⟩
    | false =>
      have hq : q a = false := by
        cases hq : q a with
        | false => rfl
        | true => rw [hqp a hq] at hp; cases hp
      rw [List.dropWhile_cons_of_neg (by simp [hp]), List.forall_mem_cons]
      refine ⟨fun h => ⟨hq, fun b hb => h.1 b hb rfl⟩, fun h => ⟨fun b hb _ => h.2 b hb, ?_⟩⟩
      refine List.Pairwise.imp_of_mem (R := fun _ _ => True) (fun _ hb _ _ => h.2 _ hb) ?_
      exact List.pairwise_of_forall fun _ _ => trivial

theorem filter_split (l : List α) :
    l.filter q = (l.takeWhile p).filter q ++ (l.dropWhile p).filter q := by
  rw [← List.filter_append, List.takeWhile_append_dropWhile]

/-- Leaving at the first without `p` loses none with `q`, whatever is then done to
them. -/
theorem map_takeWhile_filter_iff {β : Type} (f : α → β) (hqp : ∀ a, q a = true → p a = true) (l : List α) :
    ((l.takeWhile p).filter q).map f = (l.filter q).map f ↔
      l.Pairwise fun a b => p a = false → q b = false := by
  have hs := @filter_split _ p q l
  rw [pairwise_iff_dropWhile hqp, hs, List.map_append, List.self_eq_append_right, List.map_eq_nil_iff,
    List.filter_eq_nil_iff]
  simp only [Bool.not_eq_true]

/-- Starting at the first with `r` and going on treats none without `r`. -/
theorem dropWhile_eq_filter_iff (l : List α) :
    l.dropWhile (fun a => !r a) = l.filter r ↔ l.Pairwise fun a b => r a = true → r b = true := by
  have hnot := @pairwise_iff_dropWhile _ (fun a => !r a) (fun a => !r a) (fun _ h => h) l
  simp only [Bool.not_eq_false'] at hnot
  have hnone : (l.takeWhile fun a => !r a).filter r = [] := by
    rw [List.filter_eq_nil_iff]
    intro a ha h
    have := List.mem_takeWhile_imp ha
    simp [h] at this
  rw [hnot, @filter_split _ (fun a => !r a) r l, hnone, List.nil_append, eq_comm, List.filter_eq_self]

/-- A loop that starts at the first with `r` and leaves at the first without `p`,
over elements that all differ. -/
theorem dropWhile_takeWhile_eq_iff {l : List α} (hl : l.Nodup) :
    (l.takeWhile p).dropWhile (fun a => !r a) = l.filter (fun a => p a && r a) ↔
      (l.Pairwise fun a b => p a = false → (p b && r b) = false) ∧
        (l.takeWhile p).Pairwise fun a b => r a = true → r b = true := by
  have hpr : (l.takeWhile p).filter (fun a => p a && r a) = (l.takeWhile p).filter r :=
    List.filter_congr fun a ha => by rw [List.mem_takeWhile_imp ha, Bool.true_and]
  have hsplit := @filter_split _ p (fun a => p a && r a) l
  rw [pairwise_iff_dropWhile (fun a h => (Bool.and_eq_true_iff.mp h).1), ← dropWhile_eq_filter_iff]
  rw [hpr] at hsplit
  constructor
  · intro h
    -- what is lost stands in the other part of the list, so it is nowhere in the result
    have hlost : (l.dropWhile p).filter (fun a => p a && r a) = [] := by
      rw [List.eq_nil_iff_forall_not_mem]
      intro a ha
      have hd : a ∈ l.dropWhile p := (List.mem_filter.mp ha).1
      have ht : a ∈ l.takeWhile p := by
        have hm : a ∈ (l.takeWhile p).dropWhile fun a => !r a := by
          rw [h, hsplit]
          exact List.mem_append_right _ ha
        exact (List.dropWhile_sublist _).mem hm
      rw [← List.takeWhile_append_dropWhile (p := p) (l := l), List.nodup_append] at hl
      exact hl.2.2 a ht a hd rfl
    rw [hlost, List.append_nil] at hsplit
    refine ⟨fun a ha => ?_, h.trans hsplit⟩
    simpa using List.filter_eq_nil_iff.mp hlost a ha
  · intro h
    have hlost : (l.dropWhile p).filter (fun a => p a && r a) = [] :=
      List.filter_eq_nil_iff.mpr fun a ha => by simp [h.1 a ha]
    rw [hsplit, hlost, List.append_nil]
    exact h.2

end MdInfoSet.EarlyExit
