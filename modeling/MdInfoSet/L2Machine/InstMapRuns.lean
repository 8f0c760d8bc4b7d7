import Mathlib.Data.List.Induction
import Mathlib.Data.List.Sort
import Mathlib.Data.List.TakeWhile
import MdInfoSet.L2Machine.InstMap

/-!
# The life of an `InstMap`

`InitOnce` is called for any names, as a C string or as a `std::string`, then `Sort`; the
values are written through the pointers `Find` returns, and both may happen again
(src/qx_commom/inst_map.h:43-108). `std::sort` orders the items by key and promises nothing
about items of one key, so `Sort` is any function that does (`StdSort`).

* `charsToUint128_eq_iff`: two names have one key if and only if their first 16 bytes, with
  zeroes behind a shorter name, are the same.
* `after_lookup`: after any history the names found are the inserted ones, and a key that
  was inserted once keeps its value when more names are loaded.
* **Counterexample.** A key that was inserted twice may lose its value (`twice_loses_value`).
-/
namespace MdInfoSet.L2.InstMap

/-! ## Keys -/

/-- The bytes a key is made of. -/
def padded (str : Bytes) : Bytes := str.take instLenMax ++ List.replicate (instLenMax - str.length) 0

/-- The bytes before the terminating zero: `strlen`. -/
def cbytes (str : Bytes) : Bytes := str.takeWhile (· ≠ 0)

/-- The bytes as a little-endian number. -/
def number (bs : Bytes) : Nat := bs.foldr (fun c n => c.toNat + 2 ^ 8 * n) 0

theorem number_padding (bs : Bytes) (n : Nat) : number (bs ++ List.replicate n 0) = number bs := by
  have hzero : number (List.replicate n 0) = 0 := by
    induction n with
    | zero => rfl
    | succ n ih =>
      rw [number] at ih
      rw [number, List.replicate_succ, List.foldr_cons, ih]
      rfl
  rw [number, List.foldr_append, ← number, hzero, number]

theorem number_inj {a b : Bytes} (hlen : a.length = b.length) (h : number a = number b) : a = b := by
  induction a generalizing b with
  | nil => exact (List.eq_nil_of_length_eq_zero hlen.symm).symm
  | cons c a ih =>
    cases b with
    | nil => cases hlen
    | cons c' b =>
      simp only [number, List.foldr_cons] at h
      have hc := c.toNat_lt
      have hc' := c'.toNat_lt
      have hhead : c.toNat = c'.toNat := by omega
      have htail : number a = number b := by
        simp only [number]
        omega
      rw [UInt8.toNat_inj.mp hhead, ih (Nat.succ.inj hlen) htail]

theorem padded_length (str : Bytes) : (padded str).length = instLenMax := by
  rw [padded, List.length_append, List.length_take, List.length_replicate]
  omega

theorem number_padded (str : Bytes) : number (padded str) = charsToUint128 str := by
  rw [padded, number_padding]
  rfl

/-- Two names have one key if and only if they agree in the bytes it is made of. -/
theorem charsToUint128_eq_iff {a b : Bytes} : charsToUint128 a = charsToUint128 b ↔ padded a = padded b := by
  constructor
  · intro h
    rw [← number_padded, ← number_padded] at h
    exact number_inj (by rw [padded_length, padded_length]) h
  · intro h
    rw [← number_padded, h, number_padded]

/-- The key of a name as a C string. -/
theorem cbytes_padded (str : Bytes) : cbytes (padded str) = (cbytes str).take instLenMax := by
  have hzeroes : ∀ (s : Bytes) (n : Nat), cbytes (s ++ List.replicate n 0) = cbytes s := by
    intro s n
    induction s with
    | nil => cases n <;> simp [cbytes, List.replicate_succ]
    | cons c s ih =>
      by_cases hc : c = 0
      · simp [cbytes, hc]
      · simpa [cbytes, hc] using ih
  rw [padded, hzeroes, cbytes, cbytes, List.take_takeWhile]

theorem cbytes_eq_self {str : Bytes} (h : 0 ∉ str) : cbytes str = str :=
  List.takeWhile_eq_self_iff.mpr fun _ hc => decide_eq_true fun he => h (he ▸ hc)

/-- A C string shorter than a key has the key of no other. -/
theorem eq_of_padded {a b : Bytes} (hb : 0 ∉ b) (hlb : b.length < instLenMax) (h : padded a = padded b) :
    cbytes a = b := by
  have hcut : (cbytes a).take instLenMax = b := by
    rw [← cbytes_padded, h, cbytes_padded, cbytes_eq_self hb, List.take_of_length_le (Nat.le_of_lt hlb)]
  have hlen := congrArg List.length hcut
  rw [List.length_take] at hlen
  rw [← hcut, List.take_of_length_le (by omega)]

/-! ## Histories -/

/-- `std::sort` on the items. -/
structure StdSort (T : Type) where
  sort : List (Nat × T) → List (Nat × T)
  perm : ∀ data, (sort data).Perm data
  sorted : ∀ data, (sort data).Pairwise fun a b => a.1 ≤ b.1

/-- A name as the two overloads of `InitOnce` get it. -/
inductive Name where
  | chars (inst : Bytes)
  | string (inst : Bytes)

def Name.bytes : Name → Bytes
  | .chars inst => cbytes inst
  | .string inst => inst

/-- `InitOnce` for each of the names and then `Sort`, and a write through the pointer
`Find` returns, if there is one. -/
inductive Op (T : Type) where
  | load (names : List Name)
  | write (key : Bytes) (v : T)

section Histories

variable {T : Type} (zero : T) (s : StdSort T)

/-- `InitOnce` for each of the names. -/
def initAll (data : List (Nat × T)) (names : List Name) : List (Nat × T) :=
  names.foldl (fun data name => initOnce zero data name.bytes) data

def Op.apply (m : Sorted T) : Op T → Sorted T
  | .load names => ⟨s.sort (initAll zero m.data names), s.sorted _⟩
  | .write key v =>
    match find m.data (cbytes key) with
    | none => m
    | some i => m.modify i fun _ => v

/-- The map after a history. -/
def after (ops : List (Op T)) : Sorted T := ops.foldl (Op.apply zero s) ⟨[], .nil⟩

end Histories

/-- The names an operation inserts. -/
def Op.names {T : Type} : Op T → List Name
  | .load names => names
  | .write .. => []

def inserted {T : Type} (ops : List (Op T)) : List Bytes := (ops.flatMap Op.names).map Name.bytes

/-- How many of the inserted names have the key of `key`. -/
def timesInserted {T : Type} (ops : List (Op T)) (key : Bytes) : Nat :=
  (inserted ops).countP fun inst => padded inst = padded key

section Runs

variable {T : Type} {zero : T} {s : StdSort T}

theorem initAll_eq (data : List (Nat × T)) (names : List Name) :
    initAll zero data names = data ++ names.map fun name => (charsToUint128 name.bytes, zero) := by
  induction names generalizing data with
  | nil => simp [initAll]
  | cons name names ih =>
    rw [initAll, List.foldl_cons, ← initAll, ih]
    simp [initOnce]

/-- An operation adds the keys of the names it inserts. -/
theorem apply_keys (m : Sorted T) (op : Op T) :
    ((op.apply zero s m).data.map Prod.fst).Perm
      (m.data.map Prod.fst ++ op.names.map fun name => charsToUint128 name.bytes) := by
  cases op with
  | load names =>
    refine ((s.perm _).map Prod.fst).trans ?_
    rw [initAll_eq]
    simp [Op.names, Function.comp_def]
  | write key v =>
    rw [Op.apply, Op.names, List.map_nil, List.append_nil]
    split
    · exact .refl _
    · rw [Sorted.modify_keys]

/-- The keys of the map are those of the inserted names. -/
theorem after_keys (ops : List (Op T)) :
    ((after zero s ops).data.map Prod.fst).Perm ((inserted ops).map charsToUint128) := by
  induction ops using List.reverseRecOn with
  | nil => exact .nil
  | append_singleton ops op ih =>
    rw [after, List.foldl_append, List.foldl_cons, List.foldl_nil, ← after]
    refine (apply_keys _ op).trans ?_
    simpa [inserted, Function.comp_def] using ih.append_right _

/-- A key that occurs once has one value. -/
theorem value_unique {data : List (Nat × T)} {k : Nat} {v w : T} (honce : (data.map Prod.fst).count k = 1)
    (hv : (k, v) ∈ data) (hw : (k, w) ∈ data) : v = w := by
  obtain ⟨before, behind, rfl⟩ := List.append_of_mem hv
  rw [List.map_append, List.map_cons, List.count_append, List.count_cons_self] at honce
  have hbefore : k ∉ before.map Prod.fst := List.count_eq_zero.mp (by omega)
  have hbehind : k ∉ behind.map Prod.fst := List.count_eq_zero.mp (by omega)
  rcases List.mem_append.mp hw with h | h
  · exact absurd (List.mem_map_of_mem h) hbefore
  · rcases List.mem_cons.mp h with h | h
    · exact (congrArg Prod.snd h).symm
    · exact absurd (List.mem_map_of_mem h) hbehind

/-- What is found is an item of the key. -/
theorem find_mem {data : List (Nat × T)} {key : Bytes} {i : Nat} (h : find data key = some i) :
    ∃ v, data[i]? = some (charsToUint128 key, v) := by
  have hkey := find_eq_some h
  cases hi : data[i]? with
  | none =>
    rw [hi] at hkey
    cases hkey
  | some kv =>
    rw [hi, Option.map_some, Option.some.injEq] at hkey
    exact ⟨kv.2, by rw [← hkey]⟩

/-- How often a key occurs is how often it was inserted. -/
theorem after_count (ops : List (Op T)) (key : Bytes) :
    ((after zero s ops).data.map Prod.fst).count (charsToUint128 key) = timesInserted ops key := by
  rw [(after_keys ops).count_eq, timesInserted, List.count, List.countP_map]
  congr 1
  funext inst
  simp only [Function.comp, ← charsToUint128_eq_iff]
  rfl

/-- A key that occurs once keeps its value when names of other keys are loaded. -/
theorem load_keeps {m : Sorted T} {names : List Name} {key : Bytes} {i : Nat} {v : T}
    (hnew : ∀ name ∈ names, charsToUint128 name.bytes ≠ charsToUint128 key)
    (honce : (m.data.map Prod.fst).count (charsToUint128 key) = 1) (hi : find m.data key = some i)
    (hv : valueAt m.data i = some v) :
    ∃ j, find (Op.apply zero s m (.load names)).data key = some j ∧
      valueAt (Op.apply zero s m (.load names)).data j = some v := by
  obtain ⟨w, hw⟩ := find_mem hi
  rw [valueAt, hw, Option.map_some, Option.some.injEq] at hv
  obtain rfl := hv
  have hkeys := @apply_keys T zero s m (.load names)
  have hnone : (names.map fun name => charsToUint128 name.bytes).count (charsToUint128 key) = 0 := by
    rw [List.count_eq_zero, List.mem_map]
    rintro ⟨name, hname, he⟩
    exact hnew name hname he
  have honce' : ((Op.apply zero s m (.load names)).data.map Prod.fst).count (charsToUint128 key) = 1 := by
    rw [hkeys.count_eq, List.count_append, honce, Op.names, hnone]
  have hmem : (charsToUint128 key, w) ∈ (Op.apply zero s m (.load names)).data := by
    refine (s.perm _).mem_iff.mpr ?_
    rw [initAll_eq, List.mem_append]
    exact .inl (List.mem_of_getElem? hw)
  obtain ⟨j, hj⟩ := (find_isSome_iff (Op.apply zero s m (.load names)) key).mpr (List.mem_map_of_mem hmem)
  refine ⟨j, hj, ?_⟩
  obtain ⟨x, hx⟩ := find_mem hj
  rw [valueAt, hx, Option.map_some, value_unique honce' (List.mem_of_getElem? hx) hmem]

theorem mem_keys_after {ops : List (Op T)} {key : Bytes} :
    charsToUint128 key ∈ (after zero s ops).data.map Prod.fst ↔ ∃ inst ∈ inserted ops, padded inst = padded key := by
  rw [(after_keys ops).mem_iff, List.mem_map]
  simp only [charsToUint128_eq_iff]

theorem after_append (ops ops' : List (Op T)) :
    after zero s (ops ++ ops') = ops'.foldl (Op.apply zero s) (after zero s ops) :=
  List.foldl_append

end Runs

/-! ## Writing under a name -/

section Update

variable {T : Type} {m : Sorted T} {a b : Bytes} {i : Nat}

/-- The item of a name with its value changed, if there is one. -/
def Sorted.update (m : Sorted T) (key : Bytes) (f : T → T) : Sorted T :=
  match find m.data key with
  | none => m
  | some i => m.modify i f

@[simp] theorem find_update (m : Sorted T) (b : Bytes) (f : T → T) (key : Bytes) :
    find (m.update b f).data key = find m.data key := by
  unfold Sorted.update
  split
  · rfl
  · exact find_modify _ _ _ _

/-- The items of names with different keys are different. -/
theorem find_ne {j : Nat} (hi : find m.data a = some i) (hj : find m.data b = some j)
    (h : charsToUint128 a ≠ charsToUint128 b) : i ≠ j := by
  rintro rfl
  exact h (find_inj hi hj)

theorem valueAt_update_ne (f : T → T) (hi : find m.data a = some i)
    (h : charsToUint128 a ≠ charsToUint128 b) : valueAt (m.update b f).data i = valueAt m.data i := by
  unfold Sorted.update
  split
  · rfl
  · rename_i j hj
    exact m.valueAt_modify_ne f (find_ne hi hj h).symm

/-- Writes under names with different keys commute. -/
theorem update_modify_ne (f g : T → T) (hi : find m.data a = some i)
    (h : charsToUint128 a ≠ charsToUint128 b) : (m.update b f).modify i g = (m.modify i g).update b f := by
  unfold Sorted.update
  rw [show find (m.modify i g).data b = find m.data b from find_modify _ _ _ _]
  cases hj : find m.data b with
  | none => rfl
  | some j =>
    simp only [Sorted.modify, Sorted.mk.injEq]
    exact List.modify_modify_ne _ _ _ (find_ne hi hj h).symm

end Update

/-! ## Lookup -/

/-- After any history: a name is found if and only if one of its key was inserted; what is
found is an item of the key, and a write changes no other; and loading names of other keys
leaves the value of a key that was inserted once. -/
theorem after_lookup {T : Type} (zero : T) (s : StdSort T) (ops : List (Op T)) :
    (∀ key : Bytes, (∃ i, find (after zero s ops).data (cbytes key) = some i) ↔
      ∃ inst ∈ inserted ops, padded inst = padded (cbytes key)) ∧
    (∀ (key : Bytes) (i : Nat), find (after zero s ops).data (cbytes key) = some i →
      (∃ v, (after zero s ops).data[i]? = some (charsToUint128 (cbytes key), v)) ∧
      ∀ (v : T) (j : Nat), ((after zero s ops).modify i fun _ => v).data[j]? =
        if j = i then some (charsToUint128 (cbytes key), v) else (after zero s ops).data[j]?) ∧
    ∀ (names : List Name) (key : Bytes) (i : Nat) (v : T),
      (∀ name ∈ names, ∀ inst ∈ inserted ops, padded name.bytes ≠ padded inst) →
      timesInserted ops (cbytes key) = 1 → find (after zero s ops).data (cbytes key) = some i →
      valueAt (after zero s ops).data i = some v →
      ∃ j, find (after zero s (ops ++ [.load names])).data (cbytes key) = some j ∧
        valueAt (after zero s (ops ++ [.load names])).data j = some v := by
  refine ⟨fun key => (find_isSome_iff _ _).trans mem_keys_after, ?_, ?_⟩
  · intro key i hi
    obtain ⟨w, hw⟩ := find_mem hi
    refine ⟨⟨w, hw⟩, fun v j => ?_⟩
    simp only [Sorted.modify, InstMap.modify, List.getElem?_modify]
    by_cases hj : j = i
    · subst hj
      rw [hw, if_pos rfl]
      simp
    · rw [if_neg hj]
      cases (after zero s ops).data[j]? <;> simp [Ne.symm hj]
  · intro names key i v hnew honce hi hv
    rw [after_append]
    refine load_keeps ?_ (by rw [after_count, honce]) hi hv
    intro name hname he
    obtain ⟨inst, hinst, hpad⟩ := mem_keys_after.mp ((find_isSome_iff _ _).mp ⟨i, hi⟩)
    exact hnew name hname inst hinst ((charsToUint128_eq_iff.mp he).trans hpad.symm)

/-- The items ordered by key, those of one key in the order `f` leaves them in. -/
def insertionSort {T : Type} (f : List (Nat × T) → List (Nat × T)) (hf : ∀ data, (f data).Perm data) : StdSort T where
  sort data := (f data).insertionSort fun a b => a.1 ≤ b.1
  perm data := (List.perm_insertionSort _ _).trans (hf data)
  sorted data := by
    have : Std.Total fun a b : Nat × T => a.1 ≤ b.1 := ⟨fun a b => Nat.le_total a.1 b.1⟩
    have : IsTrans (Nat × T) fun a b => a.1 ≤ b.1 := ⟨fun _ _ _ => Nat.le_trans⟩
    exact List.pairwise_insertionSort _ _

/-- Two names, a value for the first, and a third name. -/
theorem after_lookup_written : ∃ j,
    find (after 0 (insertionSort id fun _ => .refl _)
      ([.load [.chars [0x61], .string [0x62]], .write [0x61] 7] ++ [.load [.chars [0x63]]])).data [0x61] = some j ∧
    valueAt (after 0 (insertionSort id fun _ => .refl _)
      ([.load [.chars [0x61], .string [0x62]], .write [0x61] 7] ++ [.load [.chars [0x63]]])).data j = some 7 :=
  (after_lookup 0 (insertionSort id fun _ => .refl _) [.load [.chars [0x61], .string [0x62]], .write [0x61] 7]).2.2
    [.chars [0x63]] [0x61] 0 7 (by decide) (by decide) (by decide +kernel) (by decide +kernel)

/-- **Counterexample.** `a` is inserted twice and 7 is written to it; the sort after `b` was
inserted puts the other item of `a` first. -/
theorem twice_loses_value : ¬ ∀ (s : StdSort Nat) (ops : List (Op Nat)) (names : List Name) (key : Bytes) (i v : Nat),
    (∀ name ∈ names, ∀ inst ∈ inserted ops, padded name.bytes ≠ padded inst) →
    find (after 0 s ops).data (cbytes key) = some i → valueAt (after 0 s ops).data i = some v →
    ∃ j, find (after 0 s (ops ++ [.load names])).data (cbytes key) = some j ∧
      valueAt (after 0 s (ops ++ [.load names])).data j = some v := by
  intro h
  have hlost : find (after 0 (insertionSort List.reverse List.reverse_perm)
      [.load [.chars [0x61], .chars [0x61]], .write [0x61] 7, .load [.chars [0x62]]]).data [0x61] = some 0 ∧
      valueAt (after 0 (insertionSort List.reverse List.reverse_perm)
      [.load [.chars [0x61], .chars [0x61]], .write [0x61] 7, .load [.chars [0x62]]]).data 0 = some 0 := by
    decide +kernel
  obtain ⟨j, hj, hv⟩ := h (insertionSort List.reverse List.reverse_perm)
    [.load [.chars [0x61], .chars [0x61]], .write [0x61] 7] [.chars [0x62]] [0x61] 0 7
    (by decide) (by decide +kernel) (by decide +kernel)
  obtain rfl := Option.some.inj (hlost.1.symm.trans hj)
  exact absurd (hlost.2.symm.trans hv) (by decide)

end MdInfoSet.L2.InstMap
