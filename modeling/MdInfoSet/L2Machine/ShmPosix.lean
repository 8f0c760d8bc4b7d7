import MdInfoSet.L2Machine.ShmLog

/-!
# Opening the append log (`share_memery_posix.h`)

`SharedMemoryManager` maps a POSIX object into `m_shm_ptr` and goes through `m_header` for the
header. The log itself is that of `ShmLog.lean`. An object is `none` when it does not exist; the
calls after `shm_open` succeed.

`m_header` is `none` as long as nothing is assigned to it: what an operation does with such a
pointer is undefined, and the model gives no result.

**Exact condition.** A manager that attaches to an object never continues its log
(`attach_never`); the one that created it does.
-/
namespace MdInfoSet.L2.ShmPosix
open MdInfoSet.L2.ShmLog

inductive Mode where
  | createNew
  | overwrite
  | attachExisting

/-- Where a pointer points: an offset into the mapping. -/
abbrev Pointer := Nat

/-- mirrors src/qx_commom/share_memery_posix.h:190-194 -/
structure SharedMemoryManager where
  m_shm_ptr : Pointer
  m_header : Option Pointer
  m_shm_size : Nat

/-- A new object is filled with zeros. -/
def zeros : Mem := fun _ => 0

/-- The header that the two creating modes write into a new object,
mirrors src/qx_commom/share_memery_posix.h:70-75 and 98-103 -/
def create (sz : Nat) : Segment where
  capacity := sz
  mem := (((zeros.putU64 0 sz).putU64 8 headerSize).putU64 16 0).memcpy 24 (fun _ => 0) 8

/-- mirrors src/qx_commom/share_memery_posix.h:47-124; `none` where the constructor throws -/
def openShm (sz : Nat) (mode : Mode) (object : Option Segment) : Option (SharedMemoryManager × Segment) :=
  match mode with
  | .createNew =>
    match object with
    | some _ => none
    | none => some (⟨0, some 0, sz⟩, create sz)
  | .overwrite => some (⟨0, some 0, sz⟩, create sz)
  | .attachExisting =>
    match object with
    | none => none
    -- `m_shm_ptr` is set, `m_header` is not.
    | some s => some (⟨0, none, sz⟩, s)

namespace SharedMemoryManager

variable (m : SharedMemoryManager) (s : Segment)

/-- mirrors src/qx_commom/share_memery_posix.h:134-147 -/
def appendData (type : UInt8) (data : Bytes) : Option (Segment × Bool) := do
  let h ← m.m_header
  let required_size := (s.mem.u64 (h + 8) + 1 + data.length) % 2 ^ 64
  if s.mem.u64 h < required_size then return (s, false)
  let data_ptr := m.m_shm_ptr + s.mem.u64 (h + 8)
  let d := s.mem.memcpy data_ptr (fun _ => type) 1
  let d := d.memcpy (data_ptr + 1) (Mem.ofBytes data) data.length
  let d := d.putU64 (h + 8) required_size
  return ({ s with mem := d.putU64 (h + 16) ((d.u64 (h + 16) + 1) % 2 ^ 64) }, true)

/-- mirrors src/qx_commom/share_memery_posix.h:181-183 -/
def getCount : Option Nat := do
  let h ← m.m_header
  return s.mem.u64 (h + 16)

/-- A sequence of appends, each of a type and data. -/
def appendAll : Segment → List (UInt8 × Bytes) → Option Segment
  | s, [] => some s
  | s, (type, data) :: rest => do
    let (s', _) ← m.appendData s type data
    appendAll s' rest

/-- The manager goes on with the log that is in the segment: it sees its count, refuses what does
not fit into `total_size`, and puts what fits behind the records, which it leaves alone. -/
def Continues : Prop :=
  m.getCount s = some s.itemCount ∧
    ∀ (type : UInt8) (data : Bytes), data.length < 2 ^ 63 →
      (s.totalSize < s.usedSize + 1 + data.length ∧ m.appendData s type data = some (s, false)) ∨
        (s.usedSize + 1 + data.length ≤ s.totalSize ∧
          ∃ s', m.appendData s type data = some (s', true) ∧ Segment.Appended s type data s')

end SharedMemoryManager

/-- The manager that a creating mode makes. -/
def creator (sz : Nat) : SharedMemoryManager := ⟨0, some 0, sz⟩

/-- The manager that `ATTACH_EXISTING` makes. -/
def attached (sz : Nat) : SharedMemoryManager := ⟨0, none, sz⟩

variable {sz : Nat} {s : Segment}

/-- With the header at the beginning of the mapping the append is that of the log. -/
theorem creator_appendData (type : UInt8) (data : Bytes) :
    (creator sz).appendData s type data = some (s.appendData type data) := by
  simp only [SharedMemoryManager.appendData, creator, Option.bind_eq_bind, Option.bind_some, Nat.zero_add]
  unfold Segment.appendData Segment.totalSize Segment.usedSize
  by_cases h : s.mem.u64 0 < (s.mem.u64 8 + 1 + data.length) % 2 ^ 64
  · simp only [h, if_true]
    rfl
  · simp only [h, if_false]
    rfl

theorem creator_continues (hs : s.Sound) : (creator sz).Continues s := by
  refine ⟨rfl, fun type data hd => ?_⟩
  rw [creator_appendData]
  rcases Segment.appendData_cases hs type hd with ⟨hfull, h⟩ | ⟨hfit, hok, happended⟩
  · exact .inl ⟨hfull, congrArg some h⟩
  · exact .inr ⟨hfit, _, congrArg some (Prod.ext rfl hok), happended⟩

theorem create_sound (hsz : headerSize ≤ sz) (hlt : sz < 2 ^ 63) : (create sz).Sound := by
  have htotal : (create sz).totalSize = sz := by
    simp only [Segment.totalSize, create]
    rw [Mem.u64_memcpy_away (by omega), Mem.u64_putU64_away (by omega), Mem.u64_putU64_away (by omega),
      Mem.u64_putU64 (by omega)]
  have hused : (create sz).usedSize = headerSize := by
    simp only [Segment.usedSize, create]
    rw [Mem.u64_memcpy_away (by omega), Mem.u64_putU64_away (by omega), Mem.u64_putU64 (by decide)]
  exact ⟨Nat.le_of_eq hused.symm, by rw [hused, htotal]; exact hsz, by rw [htotal]; exact hlt⟩

/-- The creating manager writes any sequence of records, and the log stays sound. -/
theorem appendAll_sound {ls : List (UInt8 × Bytes)} (hls : ∀ p ∈ ls, p.2.length < 2 ^ 63) (hs : s.Sound) :
    ∃ s', (creator sz).appendAll s ls = some s' ∧ s'.Sound := by
  induction ls generalizing s with
  | nil => exact ⟨s, rfl, hs⟩
  | cons p rest ih =>
    obtain ⟨type, data⟩ := p
    rw [List.forall_mem_cons] at hls
    rw [SharedMemoryManager.appendAll, creator_appendData]
    exact ih hls.2 (Segment.sound_appendData hs type hls.1)

theorem attached_not_continues : ¬ (attached sz).Continues s := fun h => by cases h.1

/-- After any history of appends the attached manager has no defined count and no defined
append, where the creating one has both. -/
theorem attach_never (hsz : headerSize ≤ sz) (hlt : sz < 2 ^ 63) {ls : List (UInt8 × Bytes)}
    (hls : ∀ p ∈ ls, p.2.length < 2 ^ 63) :
    ∃ s, (creator sz).appendAll (create sz) ls = some s ∧
      openShm sz .createNew none = some (creator sz, create sz) ∧
      openShm sz .attachExisting (some s) = some (attached sz, s) ∧
      (creator sz).Continues s ∧
      (attached sz).getCount s = none ∧ (∀ type data, (attached sz).appendData s type data = none) ∧
      ¬ (attached sz).Continues s := by
  obtain ⟨s, hrun, hsound⟩ := appendAll_sound hls (create_sound hsz hlt)
  exact ⟨s, hrun, rfl, rfl, creator_continues hsound, rfl, fun _ _ => rfl, attached_not_continues⟩

/-- 4096 bytes and one record of two bytes. -/
theorem attach_never_sample :
    ∃ s, (creator 4096).appendAll (create 4096) [(65, [1, 2])] = some s ∧ ¬ (attached 4096).Continues s := by
  have hls : ∀ p ∈ [((65 : UInt8), ([1, 2] : Bytes))], p.2.length < 2 ^ 63 := by decide
  have hsz : headerSize ≤ 4096 := by decide
  obtain ⟨s, hrun, -, -, -, -, -, hnot⟩ := attach_never hsz (by decide) hls
  exact ⟨s, hrun, hnot⟩

/-- One record is written; the creating manager counts it, the attached one cannot. -/
theorem attached_count_undefined :
    ∃ s, (creator 4096).appendAll (create 4096) [(65, [1, 2])] = some s ∧ (creator 4096).getCount s = some 1 ∧
      openShm 4096 .attachExisting (some s) = some (attached 4096, s) ∧ (attached 4096).getCount s ≠ some 1 := by
  have hrun : (creator 4096).appendAll (create 4096) [(65, [1, 2])] =
      some ((create 4096).appendData 65 [1, 2]).1 := by
    rw [SharedMemoryManager.appendAll, creator_appendData]
    rfl
  refine ⟨_, hrun, by decide +kernel, rfl, fun h => ?_⟩
  cases h

end MdInfoSet.L2.ShmPosix
