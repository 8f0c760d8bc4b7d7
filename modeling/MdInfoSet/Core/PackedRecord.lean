import MdInfoSet.Core.Mem

/-!
# Packed records

A packed record is its fields one behind the other. When the lengths of the fields are known,
each of them is read at its offset, the sum of the lengths before it (`field_at`). A number
stands in its field with the lowest byte first (`le`).
-/
namespace MdInfoSet.PackedRecord

/-- The lowest `k` bytes of a number. -/
def le (k v : Nat) : Bytes := (List.range k).map fun i => UInt8.ofNat (v / 2 ^ (8 * i))

@[simp] theorem le_length (k v : Nat) : (le k v).length = k := by simp [le]

/-- Each byte of a number in its field. -/
theorem byte_of_le {d : Mem} {off k v i : Nat} (h : d.slice off k = le k v) (hi : i < k) :
    (d (off + i)).toNat = v / 2 ^ (8 * i) % 2 ^ 8 := by
  have hbyte := List.map_inj_left.mp h i (List.mem_range.mpr hi)
  rw [hbyte, UInt8.toNat_ofNat']

theorem u32_of_le {d : Mem} {off v : Nat} (h : d.slice off 4 = le 4 v) : d.u32 off = v % 2 ^ 32 := by
  have h0 := byte_of_le h (show 0 < 4 by decide)
  have h1 := byte_of_le h (show 1 < 4 by decide)
  have h2 := byte_of_le h (show 2 < 4 by decide)
  have h3 := byte_of_le h (show 3 < 4 by decide)
  simp only [Nat.add_zero] at h0
  simp only [Mem.u32, Mem.u16, Nat.add_assoc, Nat.reduceAdd, h0, h1, h2, h3]
  omega

theorem u64_of_le {d : Mem} {off v : Nat} (h : d.slice off 8 = le 8 v) : d.u64 off = v % 2 ^ 64 := by
  have key (i : Nat) (hi : i < 8) := byte_of_le h hi
  have h0 := key 0 (by decide)
  simp only [Nat.add_zero] at h0
  simp only [Mem.u64, Mem.u32, Mem.u16, Nat.add_assoc, Nat.reduceAdd, h0, key 1 (by decide), key 2 (by decide),
    key 3 (by decide), key 4 (by decide), key 5 (by decide), key 6 (by decide), key 7 (by decide)]
  omega

variable {d : Mem} {fs : List Bytes} {lens : List Nat}

/-- The bytes before a field. -/
theorem offset_eq (hlens : fs.map List.length = lens) (i : Nat) : (fs.take i).flatten.length = (lens.take i).sum := by
  rw [List.length_flatten, List.map_take, hlens]

/-- Each field is read at its offset. -/
theorem field_at (h : d.Starts fs.flatten) (hlens : fs.map List.length = lens) {i : Nat} {f : Bytes}
    (hf : fs[i]? = some f) : d.slice (lens.take i).sum f.length = f := by
  obtain ⟨hi, rfl⟩ := List.getElem?_eq_some_iff.mp hf
  rw [← offset_eq hlens]
  exact h.field i hi

/-- From the offset of a field on, the record goes on with that field. -/
theorem drop_field (hlens : fs.map List.length = lens) {i : Nat} {f : Bytes} (hf : fs[i]? = some f) :
    ∃ rest, fs.flatten.drop (lens.take i).sum = f ++ rest := by
  obtain ⟨hi, rfl⟩ := List.getElem?_eq_some_iff.mp hf
  refine ⟨(fs.drop (i + 1)).flatten, ?_⟩
  have hsplit : fs.flatten = (fs.take i).flatten ++ (fs[i] ++ (fs.drop (i + 1)).flatten) := by
    rw [← List.flatten_cons, ← List.flatten_append, ← List.drop_eq_getElem_cons hi, List.take_append_drop]
  rw [← offset_eq hlens, hsplit, List.drop_left]

end MdInfoSet.PackedRecord
