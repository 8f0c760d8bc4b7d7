import MdInfoSet.L1Encoding.Lv2Quote
import MdInfoSet.L1Encoding.NanoMd
import MdInfoSet.L2Machine.ShmLog

/-!
# Reading the append log back

`dumpSharedMemoryToFileCsv` of `src/qx_commom/share_memery_sv.h` walks the records of a
segment by the character of each. Against it stands the log itself, a list of records: a
segment holds a log when header and record area are those of the log (`Holds`), an append
that fits is one more record, and the walk over a segment that holds a log visits the log.

The text of a line is not modelled, only which record it is of and which bytes are read for
it: every field, and `inst_id` as a C string, up to the first zero from there on.
-/
namespace MdInfoSet.L4.ShmCsv

open MdInfoSet.L1.NanoMd MdInfoSet.L2.ShmLog
open MdInfoSet.L1.Lv2Quote (cstr cstr_ends_iff)

/-! ## The reader -/

/-- The bytes `std::string(md->inst_id)` reads from `off` on. Without a zero in the mapping it
goes behind the mapping. -/
def strRead (s : Segment) (off : Nat) : Nat :=
  match cstr (s.mem.slice off (s.capacity - off)) with
  | some str => str.length + 1
  | none => s.capacity - off + 1

/-- The records a line is written for, with where they start, and the reads of the segment
(offset and length). -/
structure Csv where
  visits : List (Nat × DataType)
  reads : List (Nat × Nat)

/-- mirrors src/qx_commom/share_memery_sv.h:406-537, `n` iterations from `start` on.
A character of no type leaves `start` where it is. -/
def csvLoop (s : Segment) : Nat → Nat → Csv
  | 0, _ => ⟨[], []⟩
  | n + 1, start =>
    match DataType.ofChar (s.mem start) with
    | some type =>
      let rest := csvLoop s n (start + (type.size + 1))
      ⟨(start, type) :: rest.visits, (start, 1) :: (start + 1, strRead s (start + 1)) ::
        (start + 1 + instIdSize, type.size - instIdSize) :: rest.reads⟩
    | none =>
      let rest := csvLoop s n start
      ⟨rest.visits, (start, 1) :: rest.reads⟩

/-- mirrors src/qx_commom/share_memery_sv.h:371-543
The three counters of the header are read first, and then the character of the first record. -/
def dumpSharedMemoryToFileCsv (s : Segment) : Csv :=
  let loop := csvLoop s s.itemCount headerSize
  ⟨loop.visits, (0, 24) :: (headerSize, 1) :: loop.reads⟩

/-- No read goes behind `n`. -/
def Csv.Within (csv : Csv) (n : Nat) : Prop := ∀ r ∈ csv.reads, r.1 + r.2 ≤ n

/-! ## The log -/

/-- A record is appended under the character and with the size of its type. -/
def appendRecord (s : Segment) (r : Record) : Segment × Bool := s.appendData r.type.char r.data

/-- A sequence of calls: the segment afterwards, and the records whose call succeeded. -/
def appendAll (s : Segment) : List Record → Segment × List Record
  | [] => (s, [])
  | r :: rs =>
    let rest := appendAll (appendRecord s r).1 rs
    (rest.1, if (appendRecord s r).2 then r :: rest.2 else rest.2)

/-- The records that find room, by their sizes alone. -/
def accepted : Nat → List Record → List Record
  | _, [] => []
  | room, r :: rs =>
    if 1 + r.type.size ≤ room then r :: accepted (room - (1 + r.type.size)) rs else accepted room rs

/-- Where the records of a log stand from `start` on. -/
def offsets : Nat → List Record → List (Nat × DataType)
  | _, [] => []
  | start, r :: log => (start, r.type) :: offsets (start + (r.type.size + 1)) log

/-- The segment holds the log. -/
structure Holds (s : Segment) (sz : Nat) (log : List Record) : Prop where
  sound : s.Sound
  capacity : s.capacity = sz
  total : s.totalSize = sz
  used : s.usedSize = headerSize + (encode log).length
  count : s.itemCount = log.length
  records : s.mem.slice headerSize (encode log).length = encode log

section Append

variable {s : Segment} {sz : Nat} {log : List Record}

theorem Holds.starts (h : Holds s sz log) : (s.mem.shift headerSize).Starts (encode log) := by
  rw [Mem.starts_iff_slice, Mem.slice_shift]
  exact h.records

theorem Holds.used_le (h : Holds s sz log) : s.usedSize ≤ s.capacity := by
  have hle := h.sound.used_le
  rwa [h.total, ← h.capacity] at hle

theorem holds_create (hsz : headerSize ≤ sz) (hlt : sz < 2 ^ 63) (d : Mem) : Holds (.create sz d) sz [] := by
  obtain ⟨ht, hu, hc⟩ := Segment.create_spec hlt d
  exact ⟨(Segment.create_bounded hsz hlt d).2, rfl, ht, hu, hc, rfl⟩

/-- One call: a record that finds room is one more record of the log, any other changes nothing. -/
theorem holds_append (h : Holds s sz log) (r : Record) :
    (1 + r.type.size ≤ sz - s.usedSize ∧ (appendRecord s r).2 = true ∧
        Holds (appendRecord s r).1 sz (log ++ [r])) ∨
      (sz - s.usedSize < 1 + r.type.size ∧ appendRecord s r = (s, false)) := by
  have hlen := r.length_data
  have hle := r.type.size_bounds.2
  have hd : r.data.length < 2 ^ 63 := by omega
  have hused := h.sound.used_le
  rw [h.total] at hused
  unfold appendRecord
  rcases Segment.appendData_cases h.sound r.type.char hd with
    ⟨hfull, hsame⟩ | ⟨hfit, hok, happ⟩
  · rw [h.total, hlen] at hfull
    exact .inr ⟨by omega, hsame⟩
  · have hcount := length_le_encode log
    have hu := h.used
    have htotal := h.sound.total_lt
    have hnew := h.records
    rw [h.total, hlen] at hfit
    refine .inl ⟨by omega, hok, happ.sound h.sound (by rw [h.total]; omega), happ.capacity.trans h.capacity,
      happ.total.trans h.total, ?_, ?_, ?_⟩
    · rw [happ.used, h.used, hlen]
      simp only [encode_append, encode_cons, encode_nil, List.append_nil, List.length_append, Record.length_bytes]
      omega
    · rw [happ.count, h.count, List.length_append, Nat.mod_eq_of_lt (by rw [h.total] at htotal; omega)]
      rfl
    · have hrecord := happ.record
      rw [hlen, Nat.add_comm 1] at hrecord
      simp only [encode_append, encode_cons, encode_nil, List.append_nil, List.length_append, Record.length_bytes]
      rw [Mem.slice_add, happ.before _ _ (Nat.le_refl _) (by omega), h.records, ← h.used, hrecord, Record.bytes]

theorem appendAll_spec (h : Holds s sz log) (rs : List Record) :
    Holds (appendAll s rs).1 sz (log ++ (appendAll s rs).2) ∧
      (appendAll s rs).2 = accepted (sz - s.usedSize) rs := by
  induction rs generalizing s log with
  | nil => simpa [appendAll, accepted] using h
  | cons r rs ih =>
    simp only [appendAll, accepted]
    rcases holds_append h r with ⟨hroom, hok, hnext⟩ | ⟨hroom, hsame⟩
    · obtain ⟨h1, h2⟩ := ih hnext
      have hused : (appendRecord s r).1.usedSize = s.usedSize + (1 + r.type.size) := by
        rw [hnext.used, h.used]
        simp only [encode_append, encode_cons, encode_nil, List.append_nil, List.length_append,
          Record.length_bytes]
        omega
      rw [hused, ← Nat.sub_sub] at h2
      simp only [if_pos hok, if_pos hroom]
      exact ⟨by simpa using h1, by rw [h2]⟩
    · obtain ⟨h1, h2⟩ := ih h
      simp only [hsame, if_neg (Nat.not_le.mpr hroom)]
      exact ⟨by simpa using h1, by simpa using h2⟩

end Append

/-! ## The walk -/

section Walk

variable {s : Segment} {start n : Nat} {log : List Record}

theorem strRead_le_iff (hn : n ≤ s.capacity) (hstart : start ≤ n) :
    start + strRead s start ≤ n ↔ 0 ∈ s.mem.slice start (n - start) := by
  have htake : s.mem.slice start (n - start) = (s.mem.slice start (s.capacity - start)).take (n - start) := by
    rw [show s.capacity - start = (n - start) + (s.capacity - n) by omega, Mem.slice_add,
      List.take_left' (Mem.slice_length ..)]
  rw [htake, ← cstr_ends_iff]
  unfold strRead
  cases cstr (s.mem.slice start (s.capacity - start)) with
  | none => simp only [reduceCtorEq, false_and, exists_false, iff_false]; omega
  | some str => simp only [Option.some.injEq, exists_eq_left']; omega

/-- At the start of a record of the log the reader sees its type, and then the rest of the log. -/
theorem csvLoop_record {r : Record} (h : (s.mem.shift start).Starts (encode (r :: log))) :
    DataType.ofChar (s.mem start) = some r.type ∧
      s.mem.slice start (r.type.size + 1) = r.bytes ∧
      (s.mem.shift (start + (r.type.size + 1))).Starts (encode log) := by
  rw [encode_cons] at h
  have hchar : s.mem start = r.type.char := by simpa [Mem.shift] using h.left.head
  have hbytes := h.left.slice_zero
  rw [Mem.slice_shift, Record.length_bytes] at hbytes
  have hrest := h.right
  rw [Mem.shift_shift, Record.length_bytes] at hrest
  exact ⟨by rw [hchar, DataType.ofChar_char], hbytes, hrest⟩

/-- The walk visits the records of the log, each where it starts. -/
theorem csvLoop_visits (h : (s.mem.shift start).Starts (encode log)) :
    (csvLoop s log.length start).visits = offsets start log ∧
      (offsets start log).map (fun v => s.mem.slice v.1 (v.2.size + 1)) = log.map Record.bytes := by
  induction log generalizing start with
  | nil => exact ⟨rfl, rfl⟩
  | cons r log ih =>
    obtain ⟨htype, hbytes, hrest⟩ := csvLoop_record h
    obtain ⟨h1, h2⟩ := ih hrest
    simp only [List.length_cons, csvLoop, htype, offsets, List.map_cons, h1, h2, hbytes, and_self]

/-- Its reads stay in the log exactly if the last record has a zero. -/
theorem csvLoop_within (h : (s.mem.shift start).Starts (encode log)) (hn : start + (encode log).length = n)
    (hcap : n ≤ s.capacity) :
    (csvLoop s log.length start).Within n ↔ ∀ r, log.getLast? = some r → 0 ∈ r.data := by
  induction log generalizing start with
  | nil => simp [csvLoop, Csv.Within]
  | cons r log ih =>
    obtain ⟨htype, hbytes, hrest⟩ := csvLoop_record h
    have hsize := r.type.size_bounds.1
    simp only [encode_cons, List.length_append, Record.length_bytes] at hn
    have hstr : start + 1 + strRead s (start + 1) ≤ n ↔ 0 ∈ r.data ++ encode log := by
      rw [strRead_le_iff hcap (by omega)]
      have hslice := h.slice_zero
      rw [Mem.slice_shift, encode_cons, Record.bytes, List.cons_append, List.length_cons, Mem.slice_succ,
        List.cons.injEq] at hslice
      rw [← hslice.2]
      simp only [List.length_append, r.length_data]
      rw [show n - (start + 1) = r.type.size + (encode log).length by omega]
    have hhead : start + 1 ≤ n ∧ start + 1 + instIdSize + (r.type.size - instIdSize) ≤ n := by omega
    have hih := ih hrest (by omega)
    simp only [Csv.Within] at hih ⊢
    simp only [List.length_cons, csvLoop, htype, List.forall_mem_cons, hstr, hih, hhead, true_and]
    cases log with
    | nil => simp
    | cons r' log =>
      rw [List.getLast?_cons_cons]
      refine and_iff_right_of_imp fun hlast => ?_
      -- The zero of the last record ends every string that goes on so far.
      obtain ⟨last, hl⟩ : ∃ last, (r' :: log).getLast? = some last :=
        ⟨_, List.getLast?_eq_some_getLast (List.cons_ne_nil _ _)⟩
      refine List.mem_append_right _ (List.mem_flatMap.mpr ⟨last, List.mem_of_getLast? hl, ?_⟩)
      exact List.mem_cons_of_mem _ (hlast last hl)

/-- Of a segment that holds a log the reader visits the log. -/
theorem dump_visits {sz : Nat} (h : Holds s sz log) :
    (dumpSharedMemoryToFileCsv s).visits = offsets headerSize log ∧
      (offsets headerSize log).map (fun v => s.mem.slice v.1 (v.2.size + 1)) = log.map Record.bytes := by
  rw [dumpSharedMemoryToFileCsv, h.count]
  exact csvLoop_visits h.starts

theorem dump_within_iff {sz : Nat} (h : Holds s sz log) :
    (dumpSharedMemoryToFileCsv s).Within s.usedSize ↔ ∃ r, log.getLast? = some r ∧ 0 ∈ r.data := by
  have hloop := csvLoop_within h.starts h.used.symm h.used_le
  have hused := h.used
  have hlen := length_le_encode log
  simp only [Csv.Within, dumpSharedMemoryToFileCsv, h.count, List.forall_mem_cons] at hloop ⊢
  rw [hloop]
  cases hlast : log.getLast? with
  | none =>
    -- The character behind the header is read without a record.
    rw [List.getLast?_eq_none_iff] at hlast
    simp [hused, hlast]
  | some r =>
    have hpos : 0 < log.length := List.length_pos_of_mem (List.mem_of_getLast? hlast)
    have hread : 24 ≤ s.usedSize ∧ headerSize + 1 ≤ s.usedSize := by
      unfold headerSize at *
      omega
    simp [hread]

end Walk

/-! ## What was appended -/

/-- What a log promises after the calls `rs`: a failed call changed nothing, the counters are
those of the successful calls, and the reader visits exactly these, each where it stands, and
reads nothing behind `used_size`. -/
structure ReadsBack (s₀ : Segment) (rs : List Record) : Prop where
  refused : ∀ pre r post, rs = pre ++ r :: post → (appendRecord (appendAll s₀ pre).1 r).2 = false →
    (appendRecord (appendAll s₀ pre).1 r).1 = (appendAll s₀ pre).1
  count : (appendAll s₀ rs).1.itemCount = (appendAll s₀ rs).2.length
  used : (appendAll s₀ rs).1.usedSize = headerSize + ((appendAll s₀ rs).2.map fun r => 1 + r.type.size).sum
  visits : (dumpSharedMemoryToFileCsv (appendAll s₀ rs).1).visits = offsets headerSize (appendAll s₀ rs).2
  records : (dumpSharedMemoryToFileCsv (appendAll s₀ rs).1).visits.map
    (fun v => (appendAll s₀ rs).1.mem.slice v.1 (v.2.size + 1)) = (appendAll s₀ rs).2.map Record.bytes
  within : (dumpSharedMemoryToFileCsv (appendAll s₀ rs).1).Within (appendAll s₀ rs).1.usedSize

/-- **Exact condition.** The log reads back if and only if a record found room, and the last
one that did has a zero byte. -/
theorem reads_back_iff {sz : Nat} (hsz : headerSize ≤ sz) (hlt : sz < 2 ^ 63) (d : Mem) (rs : List Record) :
    ReadsBack (.create sz d) rs ↔ ∃ r, (accepted (sz - headerSize) rs).getLast? = some r ∧ 0 ∈ r.data := by
  have h₀ := holds_create hsz hlt d
  obtain ⟨hholds, hacc⟩ := appendAll_spec h₀ rs
  rw [List.nil_append] at hholds
  rw [h₀.used, encode_nil, List.length_nil, Nat.add_zero] at hacc
  rw [← hacc, ← dump_within_iff hholds]
  obtain ⟨hvisits, hrecords⟩ := dump_visits hholds
  refine ⟨ReadsBack.within, fun hwithin => ⟨fun pre r post _ hno => ?_, hholds.count, ?_, hvisits, ?_, hwithin⟩⟩
  · rcases holds_append (appendAll_spec h₀ pre).1 r with ⟨-, hok, -⟩ | ⟨-, hsame⟩
    · rw [hok] at hno
      cases hno
    · rw [hsame]
  · rw [← length_encode]
    exact hholds.used
  · rw [hvisits]
    exact hrecords

/-- A record of zeroes. -/
def zeroes (type : DataType) : Record := ⟨type, List.replicate type.size 0, List.length_replicate⟩

/-- The first of three records fits into 400 bytes, the others do not. -/
theorem reads_back_iff_zeroes : (accepted (496 - headerSize) [zeroes .nanoShfeMd, zeroes .nanoGfexMd,
      zeroes .nanoCffexMd]).map (·.type) = [.nanoShfeMd] ∧
    (ReadsBack (.create 496 fun _ => 0) [zeroes .nanoShfeMd, zeroes .nanoGfexMd, zeroes .nanoCffexMd] ↔
      ∃ r, (accepted (496 - headerSize) [zeroes .nanoShfeMd, zeroes .nanoGfexMd, zeroes .nanoCffexMd]).getLast? =
        some r ∧ 0 ∈ r.data) :=
  ⟨by decide +kernel, reads_back_iff (by decide) (by decide) _ _⟩

/-- **Counterexample.** The reader of an empty log reads the character behind the header. -/
theorem empty_log_reads_behind : ¬ ∀ (sz : Nat) (d : Mem) (rs : List Record), headerSize ≤ sz → sz < 2 ^ 63 →
    ReadsBack (.create sz d) rs := by
  intro h
  have hread := (h headerSize (fun _ => 0) [] (Nat.le_refl _) (by decide)).within (headerSize, 1) (by
    simp [dumpSharedMemoryToFileCsv])
  obtain ⟨-, hused, -⟩ := @Segment.create_spec headerSize (by decide) fun _ => 0
  rw [appendAll, hused] at hread
  omega

end MdInfoSet.L4.ShmCsv
