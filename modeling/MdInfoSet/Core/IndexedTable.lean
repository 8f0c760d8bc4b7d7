import Mathlib.Data.List.Nodup
import Mathlib.Data.UInt
import Mathlib.Logic.Function.Basic

/-!
# Rows and an index of them

A vector of rows, and a map from keys to positions in it. `put` appends a row for a key
that is not there and updates the row of one that is. The map stores a position in a type
that may be too small for all of them (`Positions`).

* `Refines.put`: below the bound of the positions the two are a partial map from keys to
  rows, to which `put` does what `Contents.put` does.
* `Refines.row_of_lookup`, `Refines.unique_key`: what the index says of the rows then.
-/
namespace MdInfoSet.IndexedTable

variable {K V I : Type}

/-- How positions are stored; a stored one is read back as it was below a bound. -/
structure Positions (I : Type) where
  store : Nat → I
  load : I → Nat
  bound : Nat
  load_store : ∀ n, n < bound → load (store n) = n

structure Table (K V I : Type) where
  index : List (K × I)
  rows : List V

/-- The row a key has; `none` where the index does not have it. -/
abbrev Contents (K V : Type) := K → Option V

def Contents.put [DecidableEq K] (m : Contents K V) (k : K) (new : V) (update : V → V) : Contents K V :=
  Function.update m k (some ((m k).elim new update))

def Table.put [BEq K] (P : Positions I) (t : Table K V I) (k : K) (new : V) (update : V → V) : Table K V I :=
  match t.index.lookup k with
  | none => ⟨t.index ++ [(k, P.store t.index.length)], t.rows ++ [new]⟩
  | some p => ⟨t.index, t.rows.modify (P.load p) update⟩

/-- The table holds `m`: its rows do so as long as their positions can be stored. -/
structure Refines (P : Positions I) (t : Table K V I) (m : Contents K V) : Prop where
  sizes : t.index.length = t.rows.length
  keys_nodup : (t.index.map Prod.fst).Nodup
  stored : ∀ (i : Nat) k p, t.index[i]? = some (k, p) → p = P.store i
  known : ∀ k, k ∈ t.index.map Prod.fst ↔ ∃ v, m k = some v
  row : t.rows.length ≤ P.bound → ∀ (i : Nat) k p, t.index[i]? = some (k, p) → t.rows[i]? = m k

variable {P : Positions I} {t : Table K V I} {m : Contents K V} {k : K} {p : I}

theorem put_new [BEq K] {new : V} {update : V → V} (h : t.index.lookup k = none) :
    t.put P k new update = ⟨t.index ++ [(k, P.store t.index.length)], t.rows ++ [new]⟩ := by
  simp [Table.put, h]

theorem put_known [BEq K] {new : V} {update : V → V} (h : t.index.lookup k = some p) :
    t.put P k new update = ⟨t.index, t.rows.modify (P.load p) update⟩ := by
  simp [Table.put, h]

theorem refines_empty : Refines P ⟨[], []⟩ (fun _ => none : Contents K V) where
  sizes := rfl
  keys_nodup := .nil
  stored := by simp
  known := by simp
  row := by simp

/-- A key has one position. -/
theorem position_unique {index : List (K × I)} (hnodup : (index.map Prod.fst).Nodup) {i j : Nat} {q : I}
    (hi : index[i]? = some (k, p)) (hj : index[j]? = some (k, q)) : i = j := by
  have hi' : (index.map Prod.fst)[i]? = some k := by rw [List.getElem?_map, hi, Option.map_some]
  have hj' : (index.map Prod.fst)[j]? = some k := by rw [List.getElem?_map, hj, Option.map_some]
  obtain ⟨hlt, -⟩ := List.getElem?_eq_some_iff.mp hi'
  exact (List.getElem?_inj hlt hnodup).mp (hi'.trans hj'.symm)

section Lookup

variable [BEq K] [LawfulBEq K]

theorem lookup_eq_none {index : List (K × I)} : index.lookup k = none ↔ k ∉ index.map Prod.fst := by
  rw [List.lookup_eq_none_iff]
  simp only [bne_iff_ne, List.mem_map, not_exists, not_and]
  exact ⟨fun h q hq he => h q hq he.symm, fun h q hq he => h q hq he.symm⟩

theorem exists_of_lookup {index : List (K × I)} (h : index.lookup k = some p) :
    ∃ i : Nat, index[i]? = some (k, p) := by
  obtain ⟨before, after, rfl, -⟩ := List.lookup_eq_some_iff.mp h
  exact ⟨before.length, by simp⟩

theorem lookup_of_getElem {index : List (K × I)} (hnodup : (index.map Prod.fst).Nodup) {i : Nat}
    (hi : index[i]? = some (k, p)) : index.lookup k = some p := by
  cases h : index.lookup k with
  | none => exact absurd (List.mem_map_of_mem (List.mem_of_getElem? hi)) (lookup_eq_none.mp h)
  | some q =>
    obtain ⟨j, hj⟩ := exists_of_lookup h
    have hij := position_unique hnodup hi hj
    rw [← hij, hi] at hj
    cases hj
    rfl

theorem Refines.lookup_none (h : Refines P t m) : t.index.lookup k = none ↔ m k = none := by
  rw [lookup_eq_none, h.known, Option.eq_none_iff_forall_ne_some, not_exists]

/-- The row of a known key is where the index says. -/
theorem Refines.row_of_lookup (h : Refines P t m) (hsize : t.rows.length ≤ P.bound)
    (hk : t.index.lookup k = some p) : t.rows[P.load p]? = m k := by
  obtain ⟨i, hi⟩ := exists_of_lookup hk
  have hlt := (List.getElem?_eq_some_iff.mp hi).1
  have hsizes := h.sizes
  rw [h.stored i k p hi, P.load_store i (by omega), h.row hsize i k p hi]

/-- Every position is that of one key. -/
theorem Refines.unique_key (h : Refines P t m) (hsize : t.rows.length ≤ P.bound) {i : Nat}
    (hi : i < t.rows.length) : ∃! k, ∃ p, t.index.lookup k = some p ∧ P.load p = i := by
  have hsizes := h.sizes
  obtain ⟨⟨k, p⟩, hk⟩ : ∃ q, t.index[i]? = some q := ⟨_, List.getElem?_eq_getElem (by omega)⟩
  refine ⟨k, ⟨p, lookup_of_getElem h.keys_nodup hk, ?_⟩, ?_⟩
  · rw [h.stored i k p hk, P.load_store i (by omega)]
  · intro k' ⟨p', hk', hp'⟩
    obtain ⟨j, hj⟩ := exists_of_lookup hk'
    have hlt := (List.getElem?_eq_some_iff.mp hj).1
    rw [h.stored j k' p' hj, P.load_store j (by omega)] at hp'
    rw [hp', hk] at hj
    cases hj
    rfl

theorem Refines.load_lt (h : Refines P t m) (hsize : t.rows.length ≤ P.bound)
    (hk : t.index.lookup k = some p) : P.load p < t.rows.length := by
  obtain ⟨i, hi⟩ := exists_of_lookup hk
  have hlt := (List.getElem?_eq_some_iff.mp hi).1
  have hsizes := h.sizes
  rw [h.stored i k p hi, P.load_store i (by omega)]
  omega

end Lookup

section Put

variable [BEq K] [LawfulBEq K] [DecidableEq K] {new : V} {update : V → V}

theorem Refines.put_new (h : Refines P t m) (hk : t.index.lookup k = none) :
    Refines P ⟨t.index ++ [(k, P.store t.index.length)], t.rows ++ [new]⟩ (m.put k new update) := by
  have hsizes := h.sizes
  have hmem := lookup_eq_none.mp hk
  have hcontents : m.put k new update = Function.update m k (some new) := by
    simp [Contents.put, h.lookup_none.mp hk]
  -- an entry of the new index is an old one, of another key, or the appended one
  have hcases : ∀ i k' p, (t.index ++ [(k, P.store t.index.length)])[i]? = some (k', p) →
      (t.index[i]? = some (k', p) ∧ k' ≠ k ∧ i < t.index.length) ∨
        (i = t.index.length ∧ k' = k ∧ p = P.store t.index.length) := by
    intro i k' p hi
    by_cases hlt : i < t.index.length
    · rw [List.getElem?_append_left hlt] at hi
      refine .inl ⟨hi, ?_, hlt⟩
      rintro rfl
      exact hmem (List.mem_map_of_mem (List.mem_of_getElem? hi))
    · have hle := (List.getElem?_eq_some_iff.mp hi).1
      simp only [List.length_append, List.length_singleton] at hle
      obtain rfl : i = t.index.length := by omega
      simp only [List.getElem?_concat_length, Option.some.injEq, Prod.mk.injEq] at hi
      exact .inr ⟨rfl, hi.1.symm, hi.2.symm⟩
  constructor
  case sizes => simp [hsizes]
  case keys_nodup =>
    rw [List.map_append]
    exact h.keys_nodup.append (List.nodup_singleton _) (by simpa using hmem)
  case stored =>
    intro i k' p hi
    rcases hcases i k' p hi with ⟨hold, -, -⟩ | ⟨rfl, -, rfl⟩
    · exact h.stored i k' p hold
    · rfl
  case known =>
    intro k'
    rw [hcontents, List.map_append, List.mem_append, h.known]
    by_cases he : k' = k
    · simp [he]
    · simp [he]
  case row =>
    intro hsize i k' p hi
    rw [hcontents]
    rw [List.length_append, List.length_singleton] at hsize
    rcases hcases i k' p hi with ⟨hold, hne, hlt⟩ | ⟨rfl, rfl, -⟩
    · rw [List.getElem?_append_left (by omega), h.row (by omega) i k' p hold, Function.update_of_ne hne]
    · rw [hsizes, List.getElem?_concat_length, Function.update_self]

theorem Refines.put_known (h : Refines P t m) (hk : t.index.lookup k = some p) :
    Refines P ⟨t.index, t.rows.modify (P.load p) update⟩ (m.put k new update) := by
  have hsizes := h.sizes
  obtain ⟨i, hi⟩ := exists_of_lookup hk
  have hlt := (List.getElem?_eq_some_iff.mp hi).1
  obtain ⟨v, hv⟩ := (h.known k).mp (List.mem_map_of_mem (List.mem_of_getElem? hi))
  have hcontents : m.put k new update = Function.update m k (some (update v)) := by simp [Contents.put, hv]
  constructor
  case sizes => simpa using hsizes
  case keys_nodup => exact h.keys_nodup
  case stored => exact h.stored
  case known =>
    intro k'
    rw [h.known, hcontents]
    by_cases he : k' = k
    · simp [he, hv]
    · simp [he]
  case row =>
    intro hsize j k' q hj
    rw [List.length_modify] at hsize
    have hload : P.load p = i := by rw [h.stored i k p hi, P.load_store i (by omega)]
    rw [hload, hcontents, List.getElem?_modify, h.row hsize j k' q hj]
    by_cases hij : i = j
    · subst hij
      rw [hi] at hj
      cases hj
      simp [hv]
    · have hne : k' ≠ k := by
        rintro rfl
        exact hij (position_unique h.keys_nodup hi hj)
      simp [hij, hne]

/-- `put` on the table is `put` on what it holds. -/
theorem Refines.put (h : Refines P t m) (k : K) (new : V) (update : V → V) :
    Refines P (t.put P k new update) (m.put k new update) := by
  cases hk : t.index.lookup k with
  | none =>
    rw [IndexedTable.put_new hk]
    exact h.put_new hk
  | some p =>
    rw [IndexedTable.put_known hk]
    exact h.put_known hk

end Put

end MdInfoSet.IndexedTable
