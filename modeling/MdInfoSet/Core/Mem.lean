import Mathlib.Data.List.Basic
import Mathlib.Data.UInt

/-!
# Byte memory as a C pointer shows it

A `char *` is modelled as a function from offsets to bytes (`Mem`): reading past
the end of the object it points into yields whatever stands there. A received
segment (`Seg`) is its own bytes followed by such a memory, the part of the
receive buffer behind it; statements about the code quantify over that part.

`Starts d bs` says that the memory `d` begins with the bytes `bs`. The lemmas
say what `slice`, `shift` and `memcpy` do to it, so that the proofs about loops
over a buffer never reason about single indices.
-/
namespace MdInfoSet

abbrev Bytes := List UInt8

/-- Searches among byte strings use it by name, as the indices of `Fin 5` do the next one. -/
instance Bytes.lawfulBEq : LawfulBEq Bytes := inferInstance

instance neZero_five : NeZero 5 := ⟨by decide⟩

abbrev Mem := Nat → UInt8

namespace Mem

/-- `ptr + off`. -/
def shift (d : Mem) (off : Nat) : Mem := fun i => d (off + i)

/-- The `len` bytes from `off` on. -/
def slice (d : Mem) (off len : Nat) : Bytes := (List.range len).map fun i => d (off + i)

/-- `memcpy(dst + off, src, len)`, the memory behind `dst` afterwards. -/
def memcpy (dst : Mem) (off : Nat) (src : Mem) (len : Nat) : Mem :=
  fun i => if off ≤ i ∧ i < off + len then src (i - off) else dst i

/-- The bytes `bs`, with zeroes behind them. -/
def ofBytes (bs : Bytes) : Mem := fun i => bs.getD i 0

/-- Little-endian reads, as an x86 cast of the pointer does them. -/
def u16 (d : Mem) (off : Nat) : Nat := (d off).toNat + 2 ^ 8 * (d (off + 1)).toNat

def u32 (d : Mem) (off : Nat) : Nat := u16 d off + 2 ^ 16 * u16 d (off + 2)

def u64 (d : Mem) (off : Nat) : Nat := u32 d off + 2 ^ 32 * u32 d (off + 4)

def i32 (d : Mem) (off : Nat) : Int :=
  if u32 d off < 2 ^ 31 then u32 d off else (u32 d off : Int) - 2 ^ 32

/-- A little-endian write of 64 bits. -/
def putU64 (d : Mem) (off v : Nat) : Mem := d.memcpy off (fun i => UInt8.ofNat (v / 2 ^ (8 * i))) 8

/-- The memory `d` begins with the bytes `bs`. -/
def Starts (d : Mem) (bs : Bytes) : Prop := ∀ (i : Nat) (h : i < bs.length), d i = bs[i]

@[simp] theorem slice_length (d : Mem) (off len : Nat) : (d.slice off len).length = len := by
  simp [slice]

@[simp] theorem shift_zero (d : Mem) : d.shift 0 = d := by
  funext i; simp [shift]

@[simp] theorem shift_shift (d : Mem) (a b : Nat) : (d.shift a).shift b = d.shift (a + b) := by
  funext i; simp [shift, Nat.add_assoc]

theorem slice_shift (d : Mem) (off len : Nat) : (d.shift off).slice 0 len = d.slice off len := by
  simp [slice, shift]

/-! ## Memories that agree -/

section Agree

variable {d d' : Mem} {n : Nat} (h : ∀ i, i < n → d i = d' i)

include h

theorem u16_congr {off : Nat} (ho : off + 2 ≤ n) : d.u16 off = d'.u16 off := by
  rw [u16, u16, h off (by omega), h (off + 1) (by omega)]

theorem u32_congr {off : Nat} (ho : off + 4 ≤ n) : d.u32 off = d'.u32 off := by
  rw [u32, u32, u16_congr h (by omega), u16_congr h (by omega)]

theorem u64_congr {off : Nat} (ho : off + 8 ≤ n) : d.u64 off = d'.u64 off := by
  rw [u64, u64, u32_congr h (by omega), u32_congr h (by omega)]

theorem slice_congr {off len : Nat} (ho : off + len ≤ n) : d.slice off len = d'.slice off len := by
  refine List.map_congr_left fun i hi => h _ ?_
  have := List.mem_range.mp hi
  omega

end Agree

/-- Eight bytes are known from the number they make. -/
theorem byte_of_u64 {d d' : Mem} {off : Nat} (h : d.u64 off = d'.u64 off) : ∀ i < 8, d (off + i) = d' (off + i) := by
  have hlt (e : Mem) (i : Nat) : (e (off + i)).toNat < 256 := (e (off + i)).toNat_lt
  have hsum (e : Mem) : e.u64 off = (e (off + 0)).toNat + 2 ^ 8 * (e (off + 1)).toNat + 2 ^ 16 * (e (off + 2)).toNat +
      2 ^ 24 * (e (off + 3)).toNat + 2 ^ 32 * (e (off + 4)).toNat + 2 ^ 40 * (e (off + 5)).toNat +
      2 ^ 48 * (e (off + 6)).toNat + 2 ^ 56 * (e (off + 7)).toNat := by
    simp only [u64, u32, u16, Nat.add_assoc, Nat.reduceAdd, Nat.add_zero]
    omega
  rw [hsum, hsum] at h
  have hle (i : Nat) := And.intro (hlt d i) (hlt d' i)
  have h0 := hle 0
  have h1 := hle 1
  have h2 := hle 2
  have h3 := hle 3
  have h4 := hle 4
  have h5 := hle 5
  have h6 := hle 6
  have h7 := hle 7
  intro i hi
  rw [← UInt8.toNat_inj]
  match i, hi with
  | 0, _ | 1, _ | 2, _ | 3, _ | 4, _ | 5, _ | 6, _ | 7, _ => omega

theorem slice_succ (d : Mem) (off len : Nat) :
    d.slice off (len + 1) = d off :: d.slice (off + 1) len := by
  simp only [slice, List.range_succ_eq_map, List.map_cons, List.map_map, Nat.add_zero]
  congr 1
  apply List.map_congr_left
  intro i _
  simp only [Function.comp]
  congr 1; omega

theorem slice_add (d : Mem) (off a b : Nat) :
    d.slice off (a + b) = d.slice off a ++ d.slice (off + a) b := by
  induction a generalizing off with
  | zero => simp [slice]
  | succ a ih =>
    rw [Nat.add_right_comm, slice_succ, slice_succ, ih, List.cons_append,
      Nat.add_right_comm off 1 a]
    rfl

theorem starts_iff_slice {d : Mem} {bs : Bytes} : d.Starts bs ↔ d.slice 0 bs.length = bs := by
  constructor
  · intro h
    apply List.ext_getElem (by simp)
    intro i h1 h2
    simpa [slice] using h i h2
  · intro h i hi
    have := congrArg (fun l : Bytes => l[i]?) h
    simp only [slice, Nat.zero_add, List.getElem?_map, List.getElem?_range hi,
      List.getElem?_eq_getElem hi, Option.map_some, Option.some.injEq] at this
    exact this

theorem Starts.slice_zero {d : Mem} {bs : Bytes} (h : d.Starts bs) : d.slice 0 bs.length = bs :=
  starts_iff_slice.mp h

theorem starts_ofBytes (bs : Bytes) : (ofBytes bs).Starts bs := by
  intro i h
  simp [ofBytes, List.getD_eq_getElem?_getD, h]

theorem starts_nil (d : Mem) : d.Starts [] := fun _ h => absurd h (by simp)

theorem starts_append {d : Mem} {a b : Bytes} :
    d.Starts (a ++ b) ↔ d.Starts a ∧ (d.shift a.length).Starts b := by
  simp only [starts_iff_slice, List.length_append, slice_add, slice_shift, Nat.zero_add]
  constructor
  · intro h
    exact List.append_inj h (by simp)
  · intro ⟨h1, h2⟩
    rw [h1, h2]

theorem Starts.left {d : Mem} {a b : Bytes} (h : d.Starts (a ++ b)) : d.Starts a :=
  (starts_append.mp h).1

theorem Starts.right {d : Mem} {a b : Bytes} (h : d.Starts (a ++ b)) :
    (d.shift a.length).Starts b :=
  (starts_append.mp h).2

theorem Starts.take {d : Mem} {bs : Bytes} (h : d.Starts bs) (n : Nat) : d.Starts (bs.take n) :=
  Starts.left (b := bs.drop n) (by rwa [List.take_append_drop])

/-- A record of fields one behind the other: each is read at its offset. -/
theorem Starts.field {d : Mem} {fs : List Bytes} (h : d.Starts fs.flatten) (i : Nat) (hi : i < fs.length) :
    d.slice (fs.take i).flatten.length fs[i].length = fs[i] := by
  have hsplit : fs.flatten = (fs.take i).flatten ++ (fs[i] ++ (fs.drop (i + 1)).flatten) := by
    rw [← List.flatten_cons, ← List.drop_eq_getElem_cons hi, ← List.flatten_append, List.take_append_drop]
  rw [hsplit] at h
  rw [← slice_shift]
  exact h.right.left.slice_zero

/-- The first byte, as a head sees it. -/
theorem Starts.head {d : Mem} {x : UInt8} {bs : Bytes} (h : d.Starts (x :: bs)) : d 0 = x :=
  h 0 (by simp)

/-! ## Copies -/

@[simp] theorem memcpy_zero (dst : Mem) (off : Nat) (src : Mem) : dst.memcpy off src 0 = dst := by
  funext i; simp only [memcpy, Nat.add_zero]; rw [if_neg (by omega)]

theorem memcpy_below {dst src : Mem} {off len i : Nat} (h : i < off) :
    dst.memcpy off src len i = dst i := by
  simp only [memcpy]; rw [if_neg (by omega)]

theorem memcpy_at {dst src : Mem} {off len i : Nat} (h : i < len) :
    dst.memcpy off src len (off + i) = src i := by
  simp only [memcpy]; rw [if_pos (by omega)]; congr 1; omega

theorem memcpy_above {dst src : Mem} {off len i : Nat} (h : off + len ≤ i) :
    dst.memcpy off src len i = dst i := by
  simp only [memcpy]; rw [if_neg (by omega)]

/-- What a copy leaves alone: reads before it, and reads behind it. -/
theorem memcpy_away {dst src : Mem} {off len o n i : Nat} (h : o + n ≤ off ∨ off + len ≤ o) (hi : i < n) :
    dst.memcpy off src len (o + i) = dst (o + i) := by
  rcases h with h | h
  · exact memcpy_below (by omega)
  · exact memcpy_above (by omega)

theorem slice_memcpy_away {dst src : Mem} {off len o n : Nat} (h : o + n ≤ off ∨ off + len ≤ o) :
    (dst.memcpy off src len).slice o n = dst.slice o n :=
  List.map_congr_left fun _ hi => memcpy_away h (List.mem_range.mp hi)

theorem u64_memcpy_away {dst src : Mem} {off len o : Nat} (h : o + 8 ≤ off ∨ off + len ≤ o) :
    (dst.memcpy off src len).u64 o = dst.u64 o := by
  have key : ∀ i < 8, dst.memcpy off src len (o + i) = dst (o + i) := fun i hi => memcpy_away h hi
  have key0 := key 0 (by omega)
  simp only [Nat.add_zero] at key0
  simp only [u64, u32, u16, Nat.add_assoc, Nat.reduceAdd, key0, key 1 (by omega), key 2 (by omega),
    key 3 (by omega), key 4 (by omega), key 5 (by omega), key 6 (by omega), key 7 (by omega)]

theorem slice_memcpy (dst src : Mem) (off len : Nat) :
    (dst.memcpy off src len).slice off len = src.slice 0 len := by
  refine List.map_congr_left fun i hi => ?_
  rw [memcpy_at (List.mem_range.mp hi), Nat.zero_add]

theorem u64_putU64 {v : Nat} (hv : v < 2 ^ 64) (d : Mem) (off : Nat) : (d.putU64 off v).u64 off = v := by
  have key : ∀ i < 8, (d.putU64 off v (off + i)).toNat = v / 2 ^ (8 * i) % 2 ^ 8 := by
    intro i hi
    rw [putU64, memcpy_at hi, UInt8.toNat_ofNat']
  have key0 := key 0 (by omega)
  simp only [Nat.add_zero] at key0
  simp only [u64, u32, u16, Nat.add_assoc, Nat.reduceAdd, key0, key 1 (by omega), key 2 (by omega),
    key 3 (by omega), key 4 (by omega), key 5 (by omega), key 6 (by omega), key 7 (by omega)]
  omega

theorem u64_putU64_away {d : Mem} {off v o : Nat} (h : o + 8 ≤ off ∨ off + 8 ≤ o) :
    (d.putU64 off v).u64 o = d.u64 o :=
  u64_memcpy_away h

theorem slice_putU64_away {d : Mem} {off v o n : Nat} (h : o + n ≤ off ∨ off + 8 ≤ o) :
    (d.putU64 off v).slice o n = d.slice o n :=
  slice_memcpy_away h

/-- Appending a copy behind what the buffer already starts with. -/
theorem Starts.memcpy {dst src : Mem} {a b : Bytes} (ha : dst.Starts a) (hb : src.Starts b) :
    (dst.memcpy a.length src b.length).Starts (a ++ b) := by
  rw [starts_append]
  constructor
  · intro i h
    rw [memcpy_below h]; exact ha i h
  · intro i h
    simp only [shift]; rw [memcpy_at h]; exact hb i h

end Mem

/-! ## Received segments -/

/-- A received segment: its bytes, and what the receive buffer holds behind them. -/
structure Seg where
  bytes : Bytes
  beyond : Mem

/-- The memory behind the pointer a receiver passes on. -/
def Seg.mem (s : Seg) : Mem :=
  fun i => if h : i < s.bytes.length then s.bytes[i] else s.beyond (i - s.bytes.length)

theorem Seg.mem_starts (s : Seg) : s.mem.Starts s.bytes := by
  intro i h; simp [Seg.mem, h]

theorem Seg.mem_beyond (s : Seg) (i : Nat) : s.mem (s.bytes.length + i) = s.beyond i := by
  unfold Seg.mem
  rw [dif_neg (by omega)]
  congr 1; omega

/-- Every memory that starts with `bs` is that of a segment with these bytes. -/
theorem Seg.mem_of_starts {d : Mem} {bs : Bytes} (h : d.Starts bs) :
    Seg.mem ⟨bs, d.shift bs.length⟩ = d := by
  funext i
  simp only [Seg.mem, Mem.shift]
  split
  · rename_i hi; exact (h i hi).symm
  · rename_i hi; congr 1; omega

end MdInfoSet
