import MdInfoSet.Core.LowerBound
import MdInfoSet.Core.Mem

/-!
# `InstMap`

src/qx_commom/inst_map.h: a vector of items, each an instrument's 16-byte key and the
value kept for it. `InitOnce` appends one, `Sort` orders them by key and `Find` looks
one up by binary search; a pointer into the vector is the index of an item here. The
key is the first 16 bytes of the name, so that names that agree on these share an item.

* `Sorted` carries the order `Find` relies on; only loading changes keys.
* `find_isSome_iff`: an instrument is found if and only if an item has its key.
* `find_modify`, `valueAt_modify_self`, `valueAt_modify_ne`: what writing to a value does.
-/
namespace MdInfoSet.L2.InstMap

/-- `INST_LEN_MAX` -/
def instLenMax : Nat := 16

/-- mirrors src/qx_commom/inst_map.h:99-115
The first bytes of the name as a little-endian number, with zeroes behind them. -/
def charsToUint128 (str : Bytes) : Nat := (str.take instLenMax).foldr (fun c n => c.toNat + 2 ^ 8 * n) 0

variable {T : Type}

/-- mirrors src/qx_commom/inst_map.h:43-56 -/
def initOnce (zero : T) (data : List (Nat × T)) (inst : Bytes) : List (Nat × T) :=
  data ++ [(charsToUint128 inst, zero)]

/-- The comparison of `Find`. -/
def below (data : List (Nat × T)) (k i : Nat) : Bool :=
  match data[i]? with
  | some kv => kv.1 < k
  | none => false

/-- mirrors src/qx_commom/inst_map.h:66-83 -/
def find (data : List (Nat × T)) (key : Bytes) : Option Nat :=
  let searchKey := charsToUint128 key
  let it := lowerBound (below data searchKey) 0 data.length
  if data[it]?.map Prod.fst = some searchKey then some it else none

/-- `*p`, for the pointer `Find` returned. -/
def valueAt (data : List (Nat × T)) (i : Nat) : Option T := data[i]?.map Prod.snd

/-- Writing through that pointer. -/
def modify (data : List (Nat × T)) (i : Nat) (f : T → T) : List (Nat × T) :=
  data.modify i fun kv => (kv.1, f kv.2)

/-- The items once they are sorted. -/
structure Sorted (T : Type) where
  data : List (Nat × T)
  sorted : data.Pairwise fun a b => a.1 ≤ b.1

/-- mirrors src/qx_commom/inst_map.h:58-63 -/
def sort (data : List (Nat × T)) : Sorted T where
  data := data.mergeSort fun a b => a.1 ≤ b.1
  sorted := by
    have h := @List.pairwise_mergeSort _ (fun a b : Nat × T => decide (a.1 ≤ b.1))
      (fun a b c h1 h2 => by simp only [decide_eq_true_eq] at *; omega)
      (fun a b => by simp only [Bool.or_eq_true, decide_eq_true_eq]; omega) data
    simpa using h

/-! ## Keys and values -/

@[simp] theorem modify_keys (data : List (Nat × T)) (i : Nat) (f : T → T) :
    (modify data i f).map Prod.fst = data.map Prod.fst := by
  apply List.ext_getElem?
  intro j
  simp only [modify, List.getElem?_map, List.getElem?_modify]
  cases data[j]? with
  | none => rfl
  | some kv => by_cases h : i = j <;> simp [h]

/-- The items with a value written. -/
def Sorted.modify (m : Sorted T) (i : Nat) (f : T → T) : Sorted T where
  data := InstMap.modify m.data i f
  sorted := by
    have h := (@List.pairwise_map _ _ Prod.fst (· ≤ ·) m.data).mpr m.sorted
    rw [← modify_keys m.data i f] at h
    exact List.pairwise_map.mp h

@[simp] theorem Sorted.modify_keys (m : Sorted T) (i : Nat) (f : T → T) :
    (m.modify i f).data.map Prod.fst = m.data.map Prod.fst :=
  InstMap.modify_keys m.data i f

theorem valueAt_modify_self (data : List (Nat × T)) (i : Nat) (f : T → T) :
    valueAt (modify data i f) i = (valueAt data i).map f := by
  simp only [valueAt, modify, List.getElem?_modify]
  cases data[i]? <;> simp

theorem valueAt_modify_ne {data : List (Nat × T)} {i j : Nat} (f : T → T) (h : i ≠ j) :
    valueAt (modify data i f) j = valueAt data j := by
  simp only [valueAt, modify, List.getElem?_modify]
  cases data[j]? <;> simp [h]

theorem Sorted.valueAt_modify_self (m : Sorted T) (i : Nat) (f : T → T) :
    valueAt (m.modify i f).data i = (valueAt m.data i).map f :=
  InstMap.valueAt_modify_self m.data i f

theorem Sorted.valueAt_modify_ne (m : Sorted T) {i j : Nat} (f : T → T) (h : i ≠ j) :
    valueAt (m.modify i f).data j = valueAt m.data j :=
  InstMap.valueAt_modify_ne f h

/-- Writing a value changes the items unless it is the one that is there. -/
theorem modify_const_eq_iff {data : List (Nat × T)} {i : Nat} {v w : T} (h : valueAt data i = some v) :
    modify data i (fun _ => w) = data ↔ w = v := by
  constructor
  · intro he
    have := valueAt_modify_self data i fun _ => w
    rw [he, h, Option.map_some] at this
    exact (Option.some.inj this).symm
  · rintro rfl
    apply List.ext_getElem?
    intro j
    simp only [modify, List.getElem?_modify]
    by_cases hij : i = j
    · subst hij
      simp only [valueAt] at h
      cases hd : data[i]? with
      | none => rfl
      | some kv =>
        rw [hd, Option.map_some, Option.some.injEq] at h
        simp [← h]
    · simp [hij]

/-! ## Look-up -/

/-- The look-up depends on the keys alone. -/
theorem find_congr {data data' : List (Nat × T)} (h : data.map Prod.fst = data'.map Prod.fst) (key : Bytes) :
    find data key = find data' key := by
  have hget : ∀ i : Nat, data[i]?.map Prod.fst = data'[i]?.map Prod.fst := by
    intro i
    rw [← List.getElem?_map, h, List.getElem?_map]
  have hbelow : below data (charsToUint128 key) = below data' (charsToUint128 key) := by
    funext i
    have := hget i
    unfold below
    cases h1 : data[i]? <;> cases h2 : data'[i]? <;> simp_all
  have hlen : data.length = data'.length := by
    have := congrArg List.length h
    simpa using this
  unfold find
  dsimp only
  rw [hbelow, hlen, hget]

@[simp] theorem find_modify (data : List (Nat × T)) (i : Nat) (f : T → T) (key : Bytes) :
    find (modify data i f) key = find data key :=
  find_congr (modify_keys data i f) key

/-- The item found has the key looked for. -/
theorem find_eq_some {data : List (Nat × T)} {key : Bytes} {i : Nat} (h : find data key = some i) :
    data[i]?.map Prod.fst = some (charsToUint128 key) := by
  unfold find at h
  dsimp only at h
  split at h
  · rename_i hkey
    rwa [Option.some.inj h] at hkey
  · cases h

/-- Two names that find one item have the same key. -/
theorem find_inj {data : List (Nat × T)} {key key' : Bytes} {i : Nat} (h : find data key = some i)
    (h' : find data key' = some i) : charsToUint128 key = charsToUint128 key' :=
  Option.some.inj ((find_eq_some h).symm.trans (find_eq_some h'))

/-- Names of one key find the same item. -/
theorem find_of_key {data : List (Nat × T)} {key key' : Bytes} (h : charsToUint128 key = charsToUint128 key') :
    find data key = find data key' := by
  unfold find
  rw [h]

theorem valueAt_isSome {data : List (Nat × T)} {key : Bytes} {i : Nat} (h : find data key = some i) :
    ∃ v, valueAt data i = some v := by
  have := find_eq_some h
  unfold valueAt
  cases hi : data[i]? with
  | none => simp [hi] at this
  | some kv => exact ⟨kv.2, rfl⟩

/-- In sorted items those with a smaller key come first. -/
theorem Sorted.partitioned (m : Sorted T) (k : Nat) : Partitioned (below m.data k) 0 m.data.length := by
  intro i j _ hij hj hb
  have hj' : j < m.data.length := by omega
  have hi' : i < m.data.length := by omega
  simp only [below, List.getElem?_eq_getElem hj', List.getElem?_eq_getElem hi', decide_eq_true_eq] at hb ⊢
  rcases Nat.lt_or_eq_of_le hij with hlt | rfl
  · exact Nat.lt_of_le_of_lt (List.pairwise_iff_getElem.mp m.sorted i j hi' hj' hlt) hb
  · exact hb

/-- In sorted items a name is found if and only if an item has its key. -/
theorem find_isSome_iff (m : Sorted T) (key : Bytes) :
    (∃ i, find m.data key = some i) ↔ charsToUint128 key ∈ m.data.map Prod.fst := by
  constructor
  · intro ⟨i, h⟩
    have := find_eq_some h
    rw [← List.getElem?_map] at this
    exact List.mem_of_getElem? this
  · intro h
    obtain ⟨-, hle, hspec⟩ := lowerBound_spec (m.partitioned (charsToUint128 key))
    unfold find
    dsimp only
    generalize charsToUint128 key = k at *
    generalize lowerBound (below m.data k) 0 m.data.length = r at *
    obtain ⟨j, hj, hkey⟩ := List.mem_iff_getElem.mp h
    rw [List.length_map] at hj
    rw [List.getElem_map] at hkey
    have hbelow : ∀ (i : Nat) (hi : i < m.data.length), (m.data[i].1 < k ↔ i < r) := by
      intro i hi
      rw [← hspec i (by omega) (by omega)]
      simp [below, List.getElem?_eq_getElem hi]
    -- the item with the key is not below it, so `r` is at most its position
    have hjr : r ≤ j := by
      have := hbelow j hj
      omega
    have hr : r < m.data.length := by omega
    have hge : k ≤ m.data[r].1 := by
      have := hbelow r hr
      omega
    have hle' : m.data[r].1 ≤ m.data[j].1 := by
      rcases Nat.lt_or_eq_of_le hjr with hlt | rfl
      · exact List.pairwise_iff_getElem.mp m.sorted r j hr hj hlt
      · exact Nat.le_refl _
    refine ⟨r, if_pos ?_⟩
    rw [List.getElem?_eq_getElem hr, Option.map_some, Nat.le_antisymm (hkey ▸ hle') hge]

/-- A single item is found by a name of its key. -/
theorem find_singleton {kv : Nat × T} {key : Bytes} (h : kv.1 = charsToUint128 key) : find [kv] key = some 0 := by
  obtain ⟨i, hi⟩ := (find_isSome_iff ⟨[kv], List.pairwise_singleton _ _⟩ key).mpr (by simp [h])
  have hkey := find_eq_some hi
  cases i with
  | zero => exact hi
  | succ i => simp at hkey

end MdInfoSet.L2.InstMap
