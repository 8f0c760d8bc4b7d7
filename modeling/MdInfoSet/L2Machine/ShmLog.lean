import MdInfoSet.Core.Machine
import MdInfoSet.Core.Mem

/-!
# The append log in shared memory

`SharedMemoryManager` of `src/qx_commom/share_memery_sv.h`; `share_memery_posix.h` has the same
three operations. A segment begins with a header, and records follow it. `appendData` trusts
the `total_size` in the header, and `loadFromFile` copies a file over header and records.

A `Segment` is the memory behind `m_shm_ptr` with the size of the mapping, which none of the
operations looks at: beyond it the model writes on. Opening a file may fail; a file that is
open is written or read to its end.
-/
namespace MdInfoSet.L2.ShmLog

/-- `sizeof(SharedMemoryHeader_t)` -/
def headerSize : Nat := 96

structure Segment where
  capacity : Nat
  mem : Mem

namespace Segment

/-- The header, mirrors src/qx_commom/data_type_def.h:530-537 -/
def totalSize (s : Segment) : Nat := s.mem.u64 0

def usedSize (s : Segment) : Nat := s.mem.u64 8

def itemCount (s : Segment) : Nat := s.mem.u64 16

/-- The record area. -/
def records (s : Segment) : Bytes := s.mem.slice headerSize (s.usedSize - headerSize)

/-- mirrors src/qx_commom/share_memery_sv.h:111-116
The segment is `d` when it is attached. -/
def create (sz : Nat) (d : Mem) : Segment where
  capacity := sz
  mem := (((d.putU64 0 sz).putU64 8 headerSize).putU64 16 0).memcpy 24 (fun _ => 0) 72

/-- mirrors src/qx_commom/share_memery_sv.h:165-178 -/
def appendData (s : Segment) (type : UInt8) (data : Bytes) : Segment × Bool :=
  let requiredSize := (s.usedSize + 1 + data.length) % 2 ^ 64
  if s.totalSize < requiredSize then (s, false)
  else
    let d := s.mem.memcpy s.usedSize (fun _ => type) 1
    let d := d.memcpy (s.usedSize + 1) (Mem.ofBytes data) data.length
    let d := d.putU64 8 requiredSize
    ({ s with mem := d.putU64 16 ((d.u64 16 + 1) % 2 ^ 64) }, true)

/-- mirrors src/qx_commom/share_memery_sv.h:180-188, the bytes of the file. -/
def dumpToFile (s : Segment) : Bytes := s.mem.slice 0 s.usedSize

/-- mirrors src/qx_commom/share_memery_sv.h:190-203
`file` is `none` when it cannot be opened. -/
def loadFromFile (s : Segment) (file : Option Bytes) : Segment × Bool :=
  match file with
  | none => (s, false)
  | some bytes =>
    if s.totalSize < bytes.length then (s, false)
    else ({ s with mem := s.mem.memcpy 0 (Mem.ofBytes bytes) bytes.length }, true)

/-- What every header keeps, also where its bound is that of another segment. -/
structure Sound (s : Segment) : Prop where
  header_le : headerSize ≤ s.usedSize
  used_le : s.usedSize ≤ s.totalSize
  total_lt : s.totalSize < 2 ^ 63

structure Bounded (s : Segment) : Prop where
  header_le : headerSize ≤ s.usedSize
  used_le : s.usedSize ≤ s.totalSize
  total_le : s.totalSize ≤ s.capacity

/-! ## One operation -/

theorem create_spec {sz : Nat} (hsz : sz < 2 ^ 63) (d : Mem) :
    (create sz d).totalSize = sz ∧ (create sz d).usedSize = headerSize ∧ (create sz d).itemCount = 0 := by
  simp only [totalSize, usedSize, itemCount, create]
  refine ⟨?_, ?_, ?_⟩
  · rw [Mem.u64_memcpy_away (by omega), Mem.u64_putU64_away (by omega), Mem.u64_putU64_away (by omega),
      Mem.u64_putU64 (by omega)]
  · rw [Mem.u64_memcpy_away (by omega), Mem.u64_putU64_away (by omega), Mem.u64_putU64 (by decide)]
  · rw [Mem.u64_memcpy_away (by omega), Mem.u64_putU64 (by decide)]

theorem create_bounded {sz : Nat} (hsz : headerSize ≤ sz) (hlt : sz < 2 ^ 63) (d : Mem) :
    (create sz d).Bounded ∧ (create sz d).Sound := by
  obtain ⟨ht, hu, -⟩ := create_spec hlt d
  refine ⟨⟨?_, ?_, ?_⟩, ⟨?_, ?_, ?_⟩⟩ <;> simp only [hu, ht]
  · exact Nat.le_refl _
  · exact hsz
  · exact Nat.le_refl _
  · exact Nat.le_refl _
  · exact hsz
  · exact hlt

/-- `s'` is `s` with one record more. -/
structure Appended (s : Segment) (type : UInt8) (data : Bytes) (s' : Segment) : Prop where
  capacity : s'.capacity = s.capacity
  total : s'.totalSize = s.totalSize
  used : s'.usedSize = s.usedSize + 1 + data.length
  count : s'.itemCount = (s.itemCount + 1) % 2 ^ 64
  record : s'.mem.slice s.usedSize (1 + data.length) = type :: data
  before : ∀ o n, headerSize ≤ o → o + n ≤ s.usedSize → s'.mem.slice o n = s.mem.slice o n

/-- A record that does not fit changes nothing, and one that fits is put behind the others. -/
theorem appendData_cases {s : Segment} (hs : s.Sound) (type : UInt8) {data : Bytes}
    (hd : data.length < 2 ^ 63) :
    (s.totalSize < s.usedSize + 1 + data.length ∧ s.appendData type data = (s, false)) ∨
      (s.usedSize + 1 + data.length ≤ s.totalSize ∧ (s.appendData type data).2 = true ∧
        Appended s type data (s.appendData type data).1) := by
  obtain ⟨hheader, hused, htotal⟩ := hs
  unfold headerSize at hheader
  have hwrap : (s.usedSize + 1 + data.length) % 2 ^ 64 = s.usedSize + 1 + data.length :=
    Nat.mod_eq_of_lt (by omega)
  unfold appendData
  simp only [hwrap]
  by_cases hfit : s.totalSize < s.usedSize + 1 + data.length
  · exact .inl ⟨hfit, by rw [if_pos hfit]⟩
  · rw [if_neg hfit]
    refine .inr ⟨by omega, rfl, rfl, ?_, ?_, ?_, ?_, fun o n ho hn => ?_⟩
    · simp only [totalSize]
      rw [Mem.u64_putU64_away (by omega), Mem.u64_putU64_away (by omega), Mem.u64_memcpy_away (by omega),
        Mem.u64_memcpy_away (by omega)]
    · simp only [usedSize] at *
      rw [Mem.u64_putU64_away (by omega), Mem.u64_putU64 (by omega)]
    · simp only [itemCount]
      rw [Mem.u64_putU64 (Nat.mod_lt _ (by decide)), Mem.u64_putU64_away (by omega),
        Mem.u64_memcpy_away (by omega), Mem.u64_memcpy_away (by omega)]
    · have htype : ((s.mem.memcpy s.usedSize (fun _ => type) 1).memcpy (s.usedSize + 1) (Mem.ofBytes data)
          data.length).slice s.usedSize 1 = [type] := by
        rw [Mem.slice_memcpy_away (by omega), Mem.slice_memcpy]
        rfl
      have hdata : (Mem.ofBytes data).slice 0 data.length = data := (Mem.starts_ofBytes data).slice_zero
      simp only
      rw [Mem.slice_putU64_away (by omega), Mem.slice_putU64_away (by omega), Mem.slice_add, htype,
        Mem.slice_memcpy, hdata, List.singleton_append]
    · unfold headerSize at ho
      simp only
      rw [Mem.slice_putU64_away (by omega), Mem.slice_putU64_away (by omega),
        Mem.slice_memcpy_away (by omega), Mem.slice_memcpy_away (by omega)]

theorem Appended.sound {s s' : Segment} {type : UInt8} {data : Bytes} (h : Appended s type data s')
    (hs : s.Sound)
    (hfit : s.usedSize + 1 + data.length ≤ s.totalSize) : s'.Sound := by
  refine ⟨?_, ?_, ?_⟩
  · rw [h.used]; have := hs.header_le; omega
  · rw [h.used, h.total]; exact hfit
  · rw [h.total]; exact hs.total_lt

theorem sound_appendData {s : Segment} (hs : s.Sound) (type : UInt8) {data : Bytes}
    (hd : data.length < 2 ^ 63) :
    (s.appendData type data).1.Sound := by
  rcases appendData_cases hs type hd with ⟨-, h⟩ | ⟨hfit, -, h⟩
  · rwa [h]
  · exact h.sound hs hfit

/-- A loaded dump is the dumped segment up to what it used. -/
theorem load_dump {s origin : Segment} (ho : origin.Sound) {s' : Segment}
    (h : s.loadFromFile (some origin.dumpToFile) = (s', true)) :
    s'.capacity = s.capacity ∧ s'.totalSize = origin.totalSize ∧ s'.usedSize = origin.usedSize ∧
      s'.itemCount = origin.itemCount ∧ s'.records = origin.records := by
  have hheader := ho.header_le
  unfold headerSize at hheader
  simp only [loadFromFile] at h
  split at h
  · cases h
  · simp only [Prod.mk.injEq, and_true] at h
    subst h
    have hagree : ∀ i, i < origin.usedSize →
        s.mem.memcpy 0 (Mem.ofBytes origin.dumpToFile) origin.dumpToFile.length i = origin.mem i := by
      intro i hi
      have hcopy := @Mem.memcpy_at s.mem (Mem.ofBytes origin.dumpToFile) 0 origin.dumpToFile.length i
        (by simpa [dumpToFile] using hi)
      rw [Nat.zero_add] at hcopy
      rw [hcopy, Mem.starts_ofBytes _ i (by simpa [dumpToFile] using hi)]
      simp [dumpToFile, Mem.slice]
    simp only [totalSize, itemCount, records, usedSize] at *
    rw [Mem.u64_congr hagree (by omega), Mem.u64_congr hagree (by omega), Mem.u64_congr hagree (by omega),
      Mem.slice_congr hagree (by unfold headerSize; omega)]
    exact ⟨trivial, rfl, rfl, rfl, rfl⟩

theorem load_refused {s : Segment} {file : Option Bytes} (h : (s.loadFromFile file).2 = false) :
    (s.loadFromFile file).1 = s := by
  unfold loadFromFile at *
  cases file with
  | none => rfl
  | some bytes =>
    simp only at *
    split at h
    · rw [if_pos ‹_›]
    · cases h

end Segment

/-! ## Segments and dump files -/

/-- A dump file, with the segment it was dumped from as a history variable. -/
structure DumpFile where
  bytes : Bytes
  origin : Segment

structure Shm where
  segs : Nat → Segment
  files : String → Option DumpFile

inductive Event where
  | appendData (i : Nat) (type : UInt8) (data : Bytes)
  | dumpToFile (i : Nat) (filename : String) (is_open : Bool)
  | loadFromFile (i : Nat) (filename : String) (is_open : Bool)

/-- A file that was not written cannot be opened. -/
def Shm.openIn (m : Shm) (filename : String) (is_open : Bool) : Option DumpFile :=
  if is_open then m.files filename else none

/-- `loadFromFile` of segment `i`. -/
def Shm.load (m : Shm) (i : Nat) (filename : String) (is_open : Bool) : Segment × Bool :=
  (m.segs i).loadFromFile ((m.openIn filename is_open).map (·.bytes))

def Shm.setSeg (m : Shm) (i : Nat) (s : Segment) : Shm :=
  { m with segs := fun j => if j = i then s else m.segs j }

/-- There is no object of `2 ^ 63` bytes or more to append. -/
def step (m : Shm) : Event → Option Shm
  | .appendData i type data =>
    if data.length < 2 ^ 63 then some (m.setSeg i ((m.segs i).appendData type data).1) else none
  | .dumpToFile i filename is_open =>
    if is_open then
      some { m with files := fun f => if f = filename then some ⟨(m.segs i).dumpToFile, m.segs i⟩ else m.files f }
    else some m
  | .loadFromFile i filename is_open => some (m.setSeg i (m.load i filename is_open).1)

/-- Segments of any sizes, just created, and no file yet. -/
def machine : Machine Shm Event where
  init m := (∀ i, ∃ sz d, headerSize ≤ sz ∧ sz < 2 ^ 63 ∧ m.segs i = .create sz d) ∧ ∀ f, m.files f = none
  step := step

/-- What holds of every state, also behind a load that breaks a bound. -/
structure Inv (m : Shm) : Prop where
  segs : ∀ i, (m.segs i).Sound
  files : ∀ filename f, m.files filename = some f → f.bytes = f.origin.dumpToFile ∧ f.origin.Sound

/-- The bounds hold, no append goes behind a mapping, and every load gives back the dumped
records or leaves the segment as it is. -/
structure Survives (m : Shm) : Prop where
  bounded : ∀ i, (m.segs i).Bounded
  appended : ∀ i type data, data.length < 2 ^ 63 → ((m.segs i).appendData type data).2 = true →
    (m.segs i).usedSize + 1 + data.length ≤ (m.segs i).capacity
  loaded : ∀ i filename is_open, (m.load i filename is_open).2 = true → ∃ f, m.files filename = some f ∧
    (m.load i filename is_open).1.records = f.origin.records ∧
      (m.load i filename is_open).1.itemCount = f.origin.itemCount
  refused : ∀ i filename is_open, (m.load i filename is_open).2 = false →
    (m.load i filename is_open).1 = m.segs i

/-- The header of a file that is loaded has a `total_size` the loading segment can hold. -/
def FitsMapping (m : Shm) : Event → Prop
  | .loadFromFile i filename is_open => ∀ f, m.openIn filename is_open = some f →
      f.bytes.length ≤ (m.segs i).totalSize → (Mem.ofBytes f.bytes).u64 0 ≤ (m.segs i).capacity
  | _ => True

section Steps

variable {m m' : Shm}

@[simp] theorem setSeg_self (m : Shm) (i : Nat) (s : Segment) : (m.setSeg i s).segs i = s := if_pos rfl

theorem setSeg_of_ne {i j : Nat} (h : j ≠ i) (m : Shm) (s : Segment) : (m.setSeg i s).segs j = m.segs j :=
  if_neg h

/-- What holds of the new segment and of the others holds of all. -/
theorem forall_setSeg {P : Segment → Prop} {i : Nat} {s : Segment} (h : ∀ j, P (m.segs j)) :
    (∀ j, P ((m.setSeg i s).segs j)) ↔ P s := by
  constructor
  · intro hall
    simpa using hall i
  · intro hs j
    by_cases hj : j = i
    · subst hj; simpa using hs
    · rw [setSeg_of_ne hj]; exact h j

/-- A load that succeeds is one of a file, and of its dumped segment. -/
theorem load_cases (hinv : Inv m) (i : Nat) (filename : String) (is_open : Bool) :
    ((m.load i filename is_open).2 = false ∧ (m.load i filename is_open).1 = m.segs i) ∨
      ∃ f, m.openIn filename is_open = some f ∧ m.files filename = some f ∧ f.origin.Sound ∧
        f.bytes = f.origin.dumpToFile ∧ f.bytes.length ≤ (m.segs i).totalSize ∧
        (m.segs i).loadFromFile (some f.origin.dumpToFile) = ((m.load i filename is_open).1, true) ∧
        (m.load i filename is_open).2 = true := by
  cases hf : m.openIn filename is_open with
  | none => exact .inl (by simp [Shm.load, hf, Segment.loadFromFile])
  | some f =>
    have hfile : m.files filename = some f := by
      unfold Shm.openIn at hf
      split at hf
      · exact hf
      · cases hf
    obtain ⟨hbytes, horigin⟩ := hinv.files filename f hfile
    by_cases hfit : (m.segs i).totalSize < f.bytes.length
    · exact .inl (by simp [Shm.load, hf, Segment.loadFromFile, if_pos hfit])
    · refine .inr ⟨f, rfl, hfile, horigin, hbytes, by omega, ?_, ?_⟩
      · rw [← hbytes]
        simp [Shm.load, hf, Segment.loadFromFile, if_neg hfit]
      · simp [Shm.load, hf, Segment.loadFromFile, if_neg hfit]

theorem sound_load (hinv : Inv m) (i : Nat) (filename : String) (is_open : Bool) :
    (m.load i filename is_open).1.Sound := by
  rcases load_cases hinv i filename is_open with ⟨-, h⟩ | ⟨f, -, -, ho, -, -, hl, -⟩
  · rw [h]; exact hinv.segs i
  · obtain ⟨-, ht, hu, -, -⟩ := Segment.load_dump ho hl
    exact ⟨hu ▸ ho.header_le, by rw [hu, ht]; exact ho.used_le, ht ▸ ho.total_lt⟩

theorem inv_init (h : machine.init m) : Inv m := by
  refine ⟨fun i => ?_, fun filename f hf => by rw [h.2] at hf; cases hf⟩
  obtain ⟨sz, d, hsz, hlt, hi⟩ := h.1 i
  rw [hi]
  exact (Segment.create_bounded hsz hlt d).2

theorem inv_step {e : Event} (hinv : Inv m) (h : machine.step m e = some m') : Inv m' := by
  cases e with
  | appendData i type data =>
    simp only [machine, step] at h
    split at h
    · cases h
      exact ⟨(forall_setSeg hinv.segs).mpr (Segment.sound_appendData (hinv.segs i) type ‹_›), hinv.files⟩
    · cases h
  | dumpToFile i filename is_open =>
    simp only [machine, step] at h
    split at h
    · cases h
      refine ⟨hinv.segs, fun filename' f hf => ?_⟩
      simp only at hf
      split at hf
      · cases hf
        exact ⟨rfl, hinv.segs i⟩
      · exact hinv.files filename' f hf
    · cases h
      exact hinv
  | loadFromFile i filename is_open =>
    cases h
    exact ⟨(forall_setSeg hinv.segs).mpr (sound_load hinv i filename is_open), hinv.files⟩

/-- All of it follows from the bounds. -/
theorem survives_iff_bounded (hinv : Inv m) : Survives m ↔ ∀ i, (m.segs i).Bounded := by
  refine ⟨Survives.bounded, fun hb => ⟨hb, fun i type data hd ht => ?_, fun i filename is_open ht => ?_,
    fun _ _ _ => Segment.load_refused⟩⟩
  · rcases Segment.appendData_cases (hinv.segs i) type hd with ⟨-, h⟩ | ⟨hfit, -, -⟩
    · rw [h] at ht; cases ht
    · exact Nat.le_trans hfit (hb i).total_le
  · rcases load_cases hinv i filename is_open with ⟨hf, -⟩ | ⟨f, -, hfile, ho, -, -, hl, -⟩
    · rw [hf] at ht; cases ht
    · obtain ⟨-, -, -, hcount, hrecords⟩ := Segment.load_dump ho hl
      exact ⟨f, hfile, hrecords, hcount⟩

/-- One step keeps the bounds exactly if it is not a load of a header that does not fit. -/
theorem bounded_step {e : Event} (hinv : Inv m) (hb : ∀ i, (m.segs i).Bounded)
    (h : machine.step m e = some m') : (∀ i, (m'.segs i).Bounded) ↔ FitsMapping m e := by
  cases e with
  | appendData i type data =>
    simp only [machine, step] at h
    split at h
    · cases h
      rw [forall_setSeg hb]
      refine iff_of_true ?_ trivial
      rcases Segment.appendData_cases (hinv.segs i) type ‹_› with ⟨-, h⟩ | ⟨hfit, -, h⟩
      · rw [h]; exact hb i
      · have hsound := h.sound (hinv.segs i) hfit
        refine ⟨hsound.header_le, hsound.used_le, ?_⟩
        rw [h.total, h.capacity]
        exact (hb i).total_le
    · cases h
  | dumpToFile i filename is_open =>
    simp only [machine, step] at h
    split at h <;> cases h <;> exact iff_of_true hb trivial
  | loadFromFile i filename is_open =>
    cases h
    rw [forall_setSeg hb]
    rcases load_cases hinv i filename is_open with ⟨hf, hsame⟩ | ⟨f, hopen, -, ho, hbytes, hlen, hl, -⟩
    · rw [hsame]
      refine iff_of_true (hb i) fun f hopen hlen => ?_
      simp [Shm.load, hopen, Segment.loadFromFile, Nat.not_lt.mpr hlen] at hf
    · obtain ⟨hcap, ht, hu, -, -⟩ := Segment.load_dump ho hl
      have hheader := ho.header_le
      have htotal : (Mem.ofBytes f.bytes).u64 0 = f.origin.totalSize := by
        refine Mem.u64_congr (n := f.origin.usedSize) (fun j hj => ?_) (by unfold headerSize at hheader; omega)
        rw [hbytes, Mem.starts_ofBytes _ j (by simpa [Segment.dumpToFile] using hj)]
        simp [Segment.dumpToFile, Mem.slice]
      constructor
      · intro hbound f' hopen' _
        rw [hopen, Option.some.injEq] at hopen'
        rw [← hopen', htotal, ← ht, ← hcap]
        exact hbound.total_le
      · intro hfits
        have hle := hfits f hopen hlen
        rw [htotal] at hle
        exact ⟨hu ▸ hheader, by rw [hu, ht]; exact ho.used_le, by rw [ht, hcap]; exact hle⟩

end Steps

/-- **Exact condition.** A run keeps the bounds, and with them everything that was appended,
if and only if no load takes over a `total_size` above the capacity of its segment. -/
theorem survives_iff {m₀ m : Shm} {es : List Event} (h₀ : machine.init m₀) (hr : machine.run m₀ es = some m) :
    machine.Throughout Survives m₀ es ↔ machine.Along FitsMapping m₀ es := by
  have hinv := inv_init h₀
  have hstart : Survives m₀ := by
    refine (survives_iff_bounded hinv).mpr fun i => ?_
    obtain ⟨sz, d, hsz, hlt, hi⟩ := h₀.1 i
    rw [hi]
    exact (Segment.create_bounded hsz hlt d).1
  refine Machine.throughout_iff_along (fun m e m' hinv h => inv_step hinv h) (fun m e m' hinv hP h => ?_)
    hinv hstart hr
  rw [survives_iff_bounded (inv_step hinv h)]
  exact bounded_step hinv hP.bounded h

/-- New segments of the given sizes. -/
def Shm.start (sz : Nat → Nat) : Shm := ⟨fun i => .create (sz i) fun _ => 0, fun _ => none⟩

theorem start_init {sz : Nat → Nat} (h : ∀ i, headerSize ≤ sz i ∧ sz i < 2 ^ 63) : machine.init (.start sz) :=
  ⟨fun i => ⟨sz i, fun _ => 0, (h i).1, (h i).2, rfl⟩, fun _ => rfl⟩

/-- A dump is loaded into a segment of the same size. -/
theorem survives_iff_equal_sizes : ∃ m, machine.run (.start fun _ => 400) [.appendData 0 0x63 [1, 2, 3],
      .dumpToFile 0 "dump" true, .loadFromFile 1 "dump" true] = some m ∧ (m.segs 1).records = [0x63, 1, 2, 3] ∧
    (machine.Throughout Survives (.start fun _ => 400) [.appendData 0 0x63 [1, 2, 3],
        .dumpToFile 0 "dump" true, .loadFromFile 1 "dump" true] ↔
      machine.Along FitsMapping (.start fun _ => 400) [.appendData 0 0x63 [1, 2, 3],
        .dumpToFile 0 "dump" true, .loadFromFile 1 "dump" true]) := by
  have hrun : (machine.run (.start fun _ => 400) [.appendData 0 0x63 [1, 2, 3],
      .dumpToFile 0 "dump" true, .loadFromFile 1 "dump" true]).map (fun m => (m.segs 1).records) =
        some [0x63, 1, 2, 3] := by decide +kernel
  obtain ⟨m, hm, hrecords⟩ := Option.map_eq_some_iff.mp hrun
  exact ⟨m, hm, hrecords, survives_iff (start_init fun _ => by decide) hm⟩

/-- **Counterexample.** The dump of an empty segment of 400 bytes is loaded into one of 200,
and a record of 150 bytes is appended there: 247 bytes are in use. -/
theorem append_behind_mapping : ¬ ∀ (m₀ m : Shm) (es : List Event), machine.init m₀ →
    machine.run m₀ es = some m → machine.Throughout Survives m₀ es := by
  intro h
  have hrun : (machine.run (.start fun i => if i = 0 then 400 else 200) [.dumpToFile 0 "dump" true,
      .loadFromFile 1 "dump" true, .appendData 1 0x63 (List.replicate 150 0)]).map
        (fun m => ((m.segs 1).usedSize, (m.segs 1).capacity)) = some (247, 200) := by decide +kernel
  obtain ⟨m, hm, hused⟩ := Option.map_eq_some_iff.mp hrun
  rw [Prod.mk.injEq] at hused
  have hb := (h _ m _ (start_init fun i => by split <;> decide) hm _ m List.prefix_rfl hm).bounded 1
  have hle := Nat.le_trans hb.used_le hb.total_le
  omega

end MdInfoSet.L2.ShmLog
