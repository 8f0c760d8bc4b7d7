import Mathlib.Data.List.Basic
import Mathlib.Logic.Relation

/-!
# Falling behind step by step

`R b a` says that `b` is behind `a`. The first element of a list that is behind its head is a
setback, so is the first one after that is behind this one, and so on. Whoever compares every
element with a reference, which is the head and then each time the element found behind it,
finds the setbacks behind and nothing else.

* `Reference`: the last of them, or the head; `setback_last`, `reference_concat`: what one
  more element makes of it.
* `Forward`: apart from the setbacks nothing is behind anything; `forward_concat`.
-/
namespace MdInfoSet.Setbacks

variable {α : Type} {R : α → α → Prop} {l : List α} {x : α} {i j k : Nat}

/-- Element `j` is the first one behind element `i`. -/
structure FirstBehind (R : α → α → Prop) (l : List α) (i j : Nat) : Prop where
  lt : i < j
  behind : ∃ a b, l[i]? = some a ∧ l[j]? = some b ∧ R b a
  first : ∀ k a c, i < k → k < j → l[i]? = some a → l[k]? = some c → ¬ R c a

/-- Element `j` is reached from the head by falling behind, each time as soon as possible. -/
def Setback (R : α → α → Prop) (l : List α) (j : Nat) : Prop := 0 < j ∧ Relation.ReflTransGen (FirstBehind R l) 0 j

/-- Apart from the setbacks no element is behind an earlier one. -/
def Forward (R : α → α → Prop) (l : List α) : Prop :=
  ∀ i j a b, i < j → l[i]? = some a → l[j]? = some b → ¬ Setback R l i → ¬ Setback R l j → ¬ R b a

/-- The elements that are no setbacks. -/
def Ahead (R : α → α → Prop) (l : List α) (a : α) : Prop := ∃ i, l[i]? = some a ∧ ¬ Setback R l i

/-- Nothing is behind element `k` yet, the last setback or the head. -/
structure Reference (R : α → α → Prop) (l : List α) (k : Nat) (a : α) : Prop where
  get : l[k]? = some a
  chain : Relation.ReflTransGen (FirstBehind R l) 0 k
  last : ∀ j b, k < j → l[j]? = some b → ¬ R b a

theorem not_setback_zero : ¬ Setback R l 0 := fun h => absurd h.1 (Nat.lt_irrefl 0)

theorem FirstBehind.lt_length (h : FirstBehind R l i j) : j < l.length := by
  obtain ⟨a, b, -, hb, -⟩ := h.behind
  exact (List.getElem?_eq_some_iff.mp hb).1

theorem firstBehind_rightUnique : Relator.RightUnique (FirstBehind R l) := by
  intro i j k hj hk
  obtain ⟨a, b, ha, hb, hba⟩ := hj.behind
  obtain ⟨a', c, ha', hc, hca⟩ := hk.behind
  rcases Nat.lt_trichotomy j k with hlt | heq | hgt
  · rw [ha, Option.some.injEq] at ha'
    subst ha'
    exact absurd hba (hk.first j a b hj.lt hlt ha hb)
  · exact heq
  · rw [ha, Option.some.injEq] at ha'
    subst ha'
    exact absurd hca (hj.first k a c hk.lt hgt ha hc)

/-! ## One more element -/

theorem firstBehind_concat (hj : j < l.length) : FirstBehind R (l ++ [x]) i j ↔ FirstBehind R l i j := by
  have hget : ∀ {k}, k ≤ j → (l ++ [x])[k]? = l[k]? := fun hk => List.getElem?_append_left (Nat.lt_of_le_of_lt hk hj)
  constructor <;> intro h <;> have hij := Nat.le_of_lt h.lt
  · refine ⟨h.lt, ?_, fun k a c hik hkj ha hc => h.first k a c hik hkj ?_ ?_⟩
    · simpa only [hget hij, hget (Nat.le_refl j)] using h.behind
    · rwa [hget hij]
    · rwa [hget (Nat.le_of_lt hkj)]
  · refine ⟨h.lt, ?_, fun k a c hik hkj ha hc => h.first k a c hik hkj ?_ ?_⟩
    · simpa only [hget hij, hget (Nat.le_refl j)] using h.behind
    · rwa [← hget hij]
    · rwa [← hget (Nat.le_of_lt hkj)]

/-- A chain does not come back into the list. -/
theorem chain_concat (hj : j < l.length) :
    Relation.ReflTransGen (FirstBehind R (l ++ [x])) 0 j ↔ Relation.ReflTransGen (FirstBehind R l) 0 j := by
  constructor <;> intro h
  · induction h with
    | refl => exact .refl
    | tail _ hlast ih => exact (ih (Nat.lt_trans hlast.lt hj)).tail ((firstBehind_concat hj).mp hlast)
  · induction h with
    | refl => exact .refl
    | tail _ hlast ih => exact (ih (Nat.lt_trans hlast.lt hj)).tail ((firstBehind_concat hj).mpr hlast)

theorem setback_concat (hj : j < l.length) : Setback R (l ++ [x]) j ↔ Setback R l j :=
  and_congr_right fun _ => chain_concat hj

theorem reference_single : Reference R [x] 0 x :=
  ⟨rfl, .refl, fun j b hj hb => by
    rw [List.getElem?_eq_none hj] at hb
    cases hb⟩

variable {a : α}

/-- The step to a new element starts where the chain in the list ends. -/
theorem eq_of_firstBehind (h : Reference R l k a) (hchain : Relation.ReflTransGen (FirstBehind R (l ++ [x])) 0 i)
    (hi : FirstBehind R (l ++ [x]) i l.length) : i = k := by
  rcases Relation.ReflTransGen.total_of_right_unique firstBehind_rightUnique ((chain_concat hi.lt).mp hchain) h.chain
    with hr | hr
  · rcases hr.cases_head with he | ⟨j, hij, -⟩
    · exact he
    · have hj := hij.lt_length
      have heq := firstBehind_rightUnique hi ((firstBehind_concat hj).mpr hij)
      omega
  · rcases hr.cases_head with he | ⟨j, hkj, -⟩
    · exact he.symm
    · obtain ⟨a', b, ha', hb, hba⟩ := hkj.behind
      rw [h.get, Option.some.injEq] at ha'
      subst ha'
      exact absurd hba (h.last j b hkj.lt hb)

theorem firstBehind_last (h : Reference R l k a) : FirstBehind R (l ++ [x]) k l.length ↔ R x a := by
  have hk : k < l.length := (List.getElem?_eq_some_iff.mp h.get).1
  have hget : (l ++ [x])[k]? = some a := (List.getElem?_append_left hk).trans h.get
  constructor
  · intro hlast
    obtain ⟨a', b, ha', hb, hba⟩ := hlast.behind
    rw [hget, Option.some.injEq] at ha'
    rw [List.getElem?_concat_length, Option.some.injEq] at hb
    rwa [ha', hb]
  · refine fun hx => ⟨hk, ⟨a, x, hget, List.getElem?_concat_length, hx⟩, fun m a' c hkm hm ha' hc => ?_⟩
    rw [hget, Option.some.injEq] at ha'
    subst ha'
    rw [List.getElem?_append_left hm] at hc
    exact h.last m c hkm hc

/-- The new element is a setback if it is behind the reference. -/
theorem setback_last (h : Reference R l k a) : Setback R (l ++ [x]) l.length ↔ R x a := by
  have hk : k < l.length := (List.getElem?_eq_some_iff.mp h.get).1
  rw [← firstBehind_last h]
  constructor
  · rintro ⟨hpos, hchain⟩
    rcases hchain.cases_tail with he | ⟨i, hi, hlast⟩
    · omega
    · exact eq_of_firstBehind h hi hlast ▸ hlast
  · exact fun hlast => ⟨Nat.zero_lt_of_lt hk, ((chain_concat hk).mpr h.chain).tail hlast⟩

/-- It then is the reference, and otherwise the reference stays. -/
theorem reference_concat [DecidableRel R] (h : Reference R l k a) :
    if R x a then Reference R (l ++ [x]) l.length x else Reference R (l ++ [x]) k a := by
  have hk : k < l.length := (List.getElem?_eq_some_iff.mp h.get).1
  split
  · refine ⟨List.getElem?_concat_length, ((setback_last h).mpr ‹_›).2, fun j b hj hb => ?_⟩
    rw [List.getElem?_eq_none (by rw [List.length_append]; exact hj)] at hb
    cases hb
  · rename_i hx
    refine ⟨(List.getElem?_append_left hk).trans h.get, (chain_concat hk).mpr h.chain, fun j b hj hb => ?_⟩
    rcases Nat.lt_trichotomy j l.length with hlt | rfl | hgt
    · exact h.last j b hj ((List.getElem?_append_left hlt).symm.trans hb)
    · rw [List.getElem?_concat_length, Option.some.injEq] at hb
      exact hb ▸ hx
    · rw [List.getElem?_eq_none (by rw [List.length_append]; exact hgt)] at hb
      cases hb

theorem ahead_concat {b : α} :
    Ahead R (l ++ [x]) b ↔ Ahead R l b ∨ ¬ Setback R (l ++ [x]) l.length ∧ b = x := by
  constructor
  · rintro ⟨i, hi, hs⟩
    rcases Nat.lt_trichotomy i l.length with hlt | rfl | hgt
    · exact .inl ⟨i, (List.getElem?_append_left hlt).symm.trans hi, fun h => hs ((setback_concat hlt).mpr h)⟩
    · rw [List.getElem?_concat_length, Option.some.injEq] at hi
      exact .inr ⟨hs, hi.symm⟩
    · rw [List.getElem?_eq_none (by rw [List.length_append]; exact hgt)] at hi
      cases hi
  · rintro (⟨i, hi, hs⟩ | ⟨hs, rfl⟩)
    · have hlt : i < l.length := (List.getElem?_eq_some_iff.mp hi).1
      exact ⟨i, (List.getElem?_append_left hlt).trans hi, fun h => hs ((setback_concat hlt).mp h)⟩
    · exact ⟨l.length, List.getElem?_concat_length, hs⟩

/-- The list goes on forward if the new element is a setback, or behind nothing that is none. -/
theorem forward_concat : Forward R (l ++ [x]) ↔
    Forward R l ∧ (¬ Setback R (l ++ [x]) l.length → ∀ b, Ahead R l b → ¬ R x b) := by
  constructor
  · refine fun h => ⟨fun i j a b hij ha hb hi hj => ?_, fun hs b ⟨i, hi, his⟩ => ?_⟩
    · have hjl : j < l.length := (List.getElem?_eq_some_iff.mp hb).1
      have hil : i < l.length := Nat.lt_trans hij hjl
      exact h i j a b hij ((List.getElem?_append_left hil).trans ha) ((List.getElem?_append_left hjl).trans hb)
        (fun hi' => hi ((setback_concat hil).mp hi')) (fun hj' => hj ((setback_concat hjl).mp hj'))
    · have hil : i < l.length := (List.getElem?_eq_some_iff.mp hi).1
      exact h i l.length b x hil ((List.getElem?_append_left hil).trans hi) List.getElem?_concat_length
        (fun hi' => his ((setback_concat hil).mp hi')) hs
  · rintro ⟨h, hlast⟩ i j a b hij ha hb hi hj
    have hjl : j < l.length + 1 := by simpa using (List.getElem?_eq_some_iff.mp hb).1
    have hil : i < l.length := by omega
    rw [List.getElem?_append_left hil] at ha
    rw [setback_concat hil] at hi
    rcases Nat.lt_succ_iff_lt_or_eq.mp hjl with hlt | rfl
    · rw [List.getElem?_append_left hlt] at hb
      rw [setback_concat hlt] at hj
      exact h i j a b hij ha hb hi hj
    · rw [List.getElem?_concat_length, Option.some.injEq] at hb
      exact hb ▸ hlast hj a ⟨i, ha, hi⟩

end MdInfoSet.Setbacks
