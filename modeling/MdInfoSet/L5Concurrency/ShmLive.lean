import MdInfoSet.Core.Machine
import MdInfoSet.L4App.ShmCsv

/-!
# Dumping the log while records are appended

The segment is shared: one process appends to it (`appendData`), and a tool in another process
walks over it (`dumpSharedMemoryToFileCsv` of src/qx_commom/share_memery_sv.h). There is no
lock between them. What keeps the tool from seeing half a record is the order of the stores,
the record first, then `used_size`, and `item_count` last; and that the tool compares its index
with the `item_count` of the moment, once for every line.

The writer is cut into its stores. `memcpy` may copy the bytes of a record in any order, and
each store of a counter is one step. The tool reads byte by byte, each byte at a time of its
own; any number of the writer's steps fall between two of its reads (`Timeline`). Both see the
stores in the order of the program.

* `run_append`: a call whose stores are all made is `appendData`.
* `Inv`: what holds between any two stores.
* `csv_while_appending`: the dump comes to an end, and it is that of the log as it stood at one
  moment of the dump, when the tool last looked at `item_count`.

Of a line, the record is modelled and not the text; so is not what `std::string(md->inst_id)`
reads behind a record without a zero.
-/
namespace MdInfoSet.L5.ShmLive

open MdInfoSet.L1.NanoMd MdInfoSet.L2.ShmLog
open MdInfoSet.L4.ShmCsv (appendRecord holds_create zeroes)

/-! ## The writer -/

/-- Where a call of `appendData` stands. -/
inductive Pc where
  | idle
  /-- The record fits and is being copied. -/
  | copy (r : Record)
  /-- It is copied and `used_size` is stored. -/
  | counting (r : Record)

/-- `log` are the records that have been counted, a history variable. -/
structure Writer where
  seg : Segment
  pc : Pc
  log : List Record

inductive Label where
  | append (r : Record)
  /-- Byte `k` of the record. -/
  | byte (k : Nat)
  | used
  | count

/-- mirrors src/qx_commom/share_memery_sv.h:165-178, store by store. -/
def step (w : Writer) : Label → Option Writer
  | .append r =>
    match w.pc with
    | .idle =>
      if w.seg.totalSize < (w.seg.usedSize + 1 + r.data.length) % 2 ^ 64 then some w
      else some { w with pc := .copy r }
    | _ => none
  | .byte k =>
    match w.pc with
    | .copy r => r.bytes[k]?.map fun b =>
        { w with seg.mem := w.seg.mem.memcpy (w.seg.usedSize + k) (fun _ => b) 1 }
    | _ => none
  | .used =>
    match w.pc with
    | .copy r =>
      -- `memcpy` has returned
      if w.seg.mem.slice w.seg.usedSize r.bytes.length = r.bytes then
        some { w with
          seg.mem := w.seg.mem.putU64 8 ((w.seg.usedSize + 1 + r.data.length) % 2 ^ 64), pc := .counting r }
      else none
    | _ => none
  | .count =>
    match w.pc with
    | .counting r => some
        { seg := { w.seg with mem := w.seg.mem.putU64 16 ((w.seg.itemCount + 1) % 2 ^ 64) }, pc := .idle,
          log := w.log ++ [r] }
    | _ => none

/-- A segment of `sz` bytes, just created. -/
def machine (sz : Nat) : Machine Writer Label where
  init w := headerSize ≤ sz ∧ sz < 2 ^ 63 ∧ ∃ d, w = ⟨.create sz d, .idle, []⟩
  step := step

/-- The record that is in place and not yet counted. -/
def Pc.uncounted : Pc → List Record
  | .counting r => [r]
  | _ => []

/-- The records in place. -/
def Writer.stored (w : Writer) : List Record := w.log ++ w.pc.uncounted

/-- Between any two stores. -/
structure Inv (sz : Nat) (w : Writer) : Prop where
  lt : sz < 2 ^ 63
  total : w.seg.totalSize = sz
  count : w.seg.itemCount = w.log.length
  used : w.seg.usedSize = headerSize + (encode w.stored).length
  le : w.seg.usedSize ≤ sz
  records : w.seg.mem.slice headerSize (encode w.stored).length = encode w.stored
  room : ∀ r, w.pc = .copy r → w.seg.usedSize + r.bytes.length ≤ sz

variable {sz : Nat} {w w' : Writer} {r : Record}

theorem inv_init (h : (machine sz).init w) : Inv sz w := by
  obtain ⟨hsz, hlt, d, rfl⟩ := h
  have h₀ := holds_create hsz hlt d
  exact ⟨hlt, h₀.total, h₀.count, h₀.used, h₀.used_le, h₀.records, fun r hpc => by cases hpc⟩

theorem Inv.header_le (h : Inv sz w) : 96 ≤ w.seg.usedSize := by
  have hused := h.used
  unfold headerSize at hused
  omega

/-- The log is no longer than the segment. -/
theorem Inv.length_le (h : Inv sz w) : w.log.length ≤ sz := by
  have hlen := length_le_encode w.log
  have hused := h.used
  have hle := h.le
  rw [Writer.stored, encode_append, List.length_append] at hused
  omega

/-- The size the header is to have with `r`. -/
theorem Inv.required (h : Inv sz w) (r : Record) :
    (w.seg.usedSize + 1 + r.data.length) % 2 ^ 64 = w.seg.usedSize + r.bytes.length := by
  have hlt := h.lt
  have hle := h.le
  have hsize := r.type.size_bounds.2
  rw [r.length_data, r.length_bytes, Nat.mod_eq_of_lt (by omega)]
  omega

theorem Inv.byte (h : Inv sz w) (k : Nat) (b : UInt8) :
    Inv sz { w with seg.mem := w.seg.mem.memcpy (w.seg.usedSize + k) (fun _ => b) 1 } := by
  have hheader := h.header_le
  have hbehind : headerSize + (encode w.stored).length ≤ w.seg.usedSize + k := h.used ▸ Nat.le_add_right ..
  have hused : (w.seg.mem.memcpy (w.seg.usedSize + k) (fun _ => b) 1).u64 8 = w.seg.usedSize :=
    Mem.u64_memcpy_away (by omega)
  refine ⟨h.lt, ?_, ?_, hused.trans h.used, hused.trans_le h.le, ?_, fun r hpc => ?_⟩
  · exact (Mem.u64_memcpy_away (by omega)).trans h.total
  · exact (Mem.u64_memcpy_away (by omega)).trans h.count
  · change (w.seg.mem.memcpy (w.seg.usedSize + k) (fun _ => b) 1).slice headerSize (encode w.stored).length =
      encode w.stored
    rw [Mem.slice_memcpy_away (.inl hbehind)]
    exact h.records
  · exact (Nat.add_le_add_right hused.le _).trans (h.room r hpc)

theorem Inv.storeUsed (h : Inv sz w) (hpc : w.pc = .copy r)
    (hcopied : w.seg.mem.slice w.seg.usedSize r.bytes.length = r.bytes) :
    Inv sz { w with seg.mem := w.seg.mem.putU64 8 (w.seg.usedSize + r.bytes.length), pc := .counting r } := by
  have hroom := h.room r hpc
  have hlt := h.lt
  have hused : (w.seg.mem.putU64 8 (w.seg.usedSize + r.bytes.length)).u64 8 = w.seg.usedSize + r.bytes.length :=
    Mem.u64_putU64 (by omega) ..
  have hstored : w.stored = w.log := by simp [Writer.stored, hpc, Pc.uncounted]
  have hin := h.used
  have hrec := h.records
  rw [hstored] at hin hrec
  have henc : encode (w.log ++ [r]) = encode w.log ++ r.bytes := by simp
  refine ⟨h.lt, ?_, ?_, ?_, hused.trans_le hroom, ?_, fun r' hpc' => by cases hpc'⟩
  · exact (Mem.u64_putU64_away (by omega)).trans h.total
  · exact (Mem.u64_putU64_away (by omega)).trans h.count
  · refine hused.trans ?_
    simp only [Writer.stored, Pc.uncounted]
    rw [henc, List.length_append, hin, Nat.add_assoc]
  · simp only [Writer.stored, Pc.uncounted]
    rw [Mem.slice_putU64_away (.inr (by decide)), henc, List.length_append, Mem.slice_add, hrec, ← hin, hcopied]

theorem Inv.storeCount (h : Inv sz w) (hpc : w.pc = .counting r) :
    Inv sz { seg := { w.seg with mem := w.seg.mem.putU64 16 ((w.seg.itemCount + 1) % 2 ^ 64) }, pc := .idle,
             log := w.log ++ [r] } := by
  have hlt := h.lt
  have hlen := h.length_le
  have hcount := h.count
  have hstored : w.stored = w.log ++ [r] := by simp [Writer.stored, hpc, Pc.uncounted]
  have hused : (w.seg.mem.putU64 16 ((w.seg.itemCount + 1) % 2 ^ 64)).u64 8 = w.seg.usedSize :=
    Mem.u64_putU64_away (by omega)
  refine ⟨h.lt, ?_, ?_, ?_, hused.trans_le h.le, ?_, fun r' hpc' => by cases hpc'⟩
  · exact (Mem.u64_putU64_away (by omega)).trans h.total
  · refine (Mem.u64_putU64 (Nat.mod_lt _ (by decide)) ..).trans ?_
    rw [List.length_append, hcount, Nat.mod_eq_of_lt (by omega)]
    rfl
  · refine hused.trans ?_
    simp only [Writer.stored, Pc.uncounted, List.append_nil]
    rw [← hstored]
    exact h.used
  · simp only [Writer.stored, Pc.uncounted, List.append_nil]
    rw [Mem.slice_putU64_away (.inr (by decide)), ← hstored]
    exact h.records

/-- A step keeps the invariant, and takes nothing out of the log. -/
theorem inv_step (h : Inv sz w) {l : Label} (hs : step w l = some w') : Inv sz w' ∧ w.log <+: w'.log := by
  cases l with
  | append r =>
    simp only [step] at hs
    split at hs
    · rw [h.required, h.total] at hs
      split at hs
      · cases hs
        exact ⟨h, List.prefix_rfl⟩
      · rename_i hpc hfit
        cases hs
        refine ⟨{ h with used := ?_, records := ?_, room := fun r' hr => ?_ }, List.prefix_rfl⟩
        · simpa [Writer.stored, hpc, Pc.uncounted] using h.used
        · simpa [Writer.stored, hpc, Pc.uncounted] using h.records
        · cases hr
          exact Nat.not_lt.mp hfit
    · cases hs
  | byte k =>
    simp only [step] at hs
    split at hs
    · obtain ⟨b, -, rfl⟩ := Option.map_eq_some_iff.mp hs
      exact ⟨h.byte k b, List.prefix_rfl⟩
    · cases hs
  | used =>
    simp only [step] at hs
    split at hs
    · rename_i r hpc
      rw [h.required] at hs
      split at hs
      · cases hs
        exact ⟨h.storeUsed hpc ‹_›, List.prefix_rfl⟩
      · cases hs
    · cases hs
  | count =>
    simp only [step] at hs
    split at hs
    · cases hs
      exact ⟨h.storeCount ‹_›, List.prefix_append ..⟩
    · cases hs

theorem inv_run (h : Inv sz w) {ls : List Label} (hr : (machine sz).run w ls = some w') :
    Inv sz w' ∧ w.log <+: w'.log := by
  induction ls generalizing w with
  | nil =>
    cases hr
    exact ⟨h, List.prefix_rfl⟩
  | cons l ls ih =>
    obtain ⟨w1, h1, h2⟩ := Machine.run_cons.mp hr
    obtain ⟨hi, hlog⟩ := inv_step h h1
    obtain ⟨hi', hlog'⟩ := ih hi h2
    exact ⟨hi', hlog.trans hlog'⟩

/-! ## One call -/

/-- The stores of a call that succeeds, the bytes from the first to the last. -/
def stores (r : Record) : List Label := .append r :: (List.range r.bytes.length).map .byte ++ [.used, .count]

theorem run_bytes (h : Inv sz w) (hpc : w.pc = .copy r) {n : Nat} (hn : n ≤ r.bytes.length) :
    (machine sz).run w ((List.range n).map .byte) =
      some { w with seg.mem := w.seg.mem.memcpy w.seg.usedSize (Mem.ofBytes r.bytes) n } := by
  have hheader := h.header_le
  induction n with
  | zero => simp
  | succ n ih =>
    have hused : (w.seg.mem.memcpy w.seg.usedSize (Mem.ofBytes r.bytes) n).u64 8 = w.seg.usedSize :=
      Mem.u64_memcpy_away (by omega)
    have hbyte : r.bytes[n]? = some (Mem.ofBytes r.bytes n) := by
      rw [Mem.ofBytes, List.getD_eq_getElem?_getD, List.getElem?_eq_getElem hn]
      rfl
    rw [List.range_succ, List.map_append, Machine.run_append, ih (by omega), Option.bind_some]
    simp only [List.map_cons, List.map_nil, Machine.run, machine, step, hpc, hbyte, Option.map_some, Option.bind_some,
      Segment.usedSize] at hused ⊢
    rw [hused]
    congr 3
    funext i
    simp only [Mem.memcpy]
    grind

/-- The copy of a character and of what is behind it. -/
theorem memcpy_cons (d : Mem) (off : Nat) (c : UInt8) (data : Bytes) :
    d.memcpy off (Mem.ofBytes (c :: data)) (data.length + 1) =
      (d.memcpy off (fun _ => c) 1).memcpy (off + 1) (Mem.ofBytes data) data.length := by
  funext i
  rcases Nat.lt_trichotomy i off with hi | rfl | hi
  · rw [Mem.memcpy_below hi, Mem.memcpy_below (by omega), Mem.memcpy_below hi]
  · rw [Mem.memcpy_below (Nat.lt_succ_self i)]
    simp [Mem.memcpy, Mem.ofBytes]
  · obtain ⟨j, rfl⟩ := Nat.exists_eq_add_of_lt hi
    by_cases hj : j < data.length
    · rw [show off + j + 1 = off + 1 + j by omega, Mem.memcpy_at hj, show off + 1 + j = off + (j + 1) by omega,
        Mem.memcpy_at (by omega)]
      simp [Mem.ofBytes]
    · rw [Mem.memcpy_above (by omega), Mem.memcpy_above (by omega), Mem.memcpy_above (by omega)]

theorem step_used (hpc : w.pc = .copy r) (hcopied : w.seg.mem.slice w.seg.usedSize r.bytes.length = r.bytes) :
    step w .used = some { w with
      seg.mem := w.seg.mem.putU64 8 ((w.seg.usedSize + 1 + r.data.length) % 2 ^ 64), pc := .counting r } := by
  simp only [step, hpc, if_pos hcopied]

/-- A call whose stores are all made is `appendData`. -/
theorem run_append (h : Inv sz w) (hpc : w.pc = .idle) (hroom : w.seg.usedSize + r.bytes.length ≤ sz) :
    (machine sz).run w (stores r) = some ⟨(appendRecord w.seg r).1, .idle, w.log ++ [r]⟩ := by
  have hheader := h.header_le
  have hfit : ¬ w.seg.totalSize < (w.seg.usedSize + 1 + r.data.length) % 2 ^ 64 := by
    rw [h.required, h.total]
    exact Nat.not_lt.mpr hroom
  have hbegin : step w (.append r) = some { w with pc := .copy r } := by simp only [step, hpc, if_neg hfit]
  have hbytes := run_bytes (inv_step h hbegin).1 rfl (Nat.le_refl r.bytes.length)
  have hused : (w.seg.mem.memcpy w.seg.usedSize (Mem.ofBytes r.bytes) r.bytes.length).u64 8 = w.seg.usedSize :=
    Mem.u64_memcpy_away (by omega)
  have hcopied : (w.seg.mem.memcpy w.seg.usedSize (Mem.ofBytes r.bytes) r.bytes.length).slice
      ((w.seg.mem.memcpy w.seg.usedSize (Mem.ofBytes r.bytes) r.bytes.length).u64 8) r.bytes.length = r.bytes := by
    rw [hused, Mem.slice_memcpy, (Mem.starts_ofBytes r.bytes).slice_zero]
  have hstored := step_used (w := ⟨⟨w.seg.capacity, w.seg.mem.memcpy w.seg.usedSize (Mem.ofBytes r.bytes)
    r.bytes.length⟩, .copy r, w.log⟩) rfl hcopied
  rw [stores, List.cons_append]
  refine Machine.run_cons.mpr ⟨_, hbegin, ?_⟩
  rw [Machine.run_append, hbytes, Option.bind_some]
  refine Machine.run_cons.mpr ⟨_, hstored, Machine.run_cons.mpr ⟨_, rfl, ?_⟩⟩
  simp only [Machine.run_nil, appendRecord, Segment.appendData, if_neg hfit]
  simp only [Record.bytes, List.length_cons, memcpy_cons, Segment.usedSize, Segment.itemCount] at hused ⊢
  rw [hused]

/-! ## The reader -/

/-- The writer at each tick of the reader. -/
structure Timeline (sz : Nat) where
  writer : Nat → Writer
  start : (machine sz).Reachable (writer 0)
  stores : ∀ t, ∃ ls, (machine sz).run (writer t) ls = some (writer (t + 1))

/-- What the reader finds in memory. -/
def Timeline.mem (tl : Timeline sz) (now : Nat) : Mem := (tl.writer now).seg.mem

/-- The record of a line, as it was read. -/
abbrev Line := DataType × Bytes

/-- mirrors src/qx_commom/share_memery_sv.h:406-537, from line `i` on and from `start` on.
At `now` the reader looks at `item_count`. Byte `k` behind `start` is read `pace i k` ticks
later, in whatever order, and then the reader looks again. The result is the lines and the tick
of the last look, or `none` when `fuel` runs out. -/
def csvLoop (mem : Nat → Mem) (pace : Nat → Nat → Nat) : Nat → Nat → Nat → Nat → Option (List Line × Nat)
  | 0, _, _, _ => none
  | fuel + 1, now, start, i =>
    if i < (mem now).u64 16 then
      match DataType.ofChar (mem (now + pace i 0) start) with
      | some type =>
        let data := (List.range type.size).map fun k => mem (now + pace i (k + 1)) (start + 1 + k)
        (csvLoop mem pace fuel (now + pace i (type.size + 1)) (start + (type.size + 1)) (i + 1)).map fun rest =>
          ((type, data) :: rest.1, rest.2)
      | none => csvLoop mem pace fuel (now + pace i 1) start (i + 1)
    else some ([], now)

/-- mirrors src/qx_commom/share_memery_sv.h:371-543 -/
def dumpSharedMemoryToFileCsv (mem : Nat → Mem) (pace : Nat → Nat → Nat) (fuel now : Nat) :
    Option (List Line × Nat) :=
  csvLoop mem pace fuel now headerSize 0

/-- The line of a record. -/
def line (r : Record) : Line := (r.type, r.data)

variable {tl : Timeline sz} {now t t' : Nat} {pre post : List Record}

theorem Timeline.inv (tl : Timeline sz) (t : Nat) : Inv sz (tl.writer t) := by
  induction t with
  | zero =>
    obtain ⟨w, ls, hw, hr⟩ := tl.start
    exact (inv_run (inv_init hw) hr).1
  | succ t ih =>
    obtain ⟨ls, hr⟩ := tl.stores t
    exact (inv_run ih hr).1

theorem Timeline.log_prefix (tl : Timeline sz) (hle : t ≤ t') : (tl.writer t).log <+: (tl.writer t').log := by
  induction hle with
  | refl => exact List.prefix_rfl
  | step _ ih =>
    obtain ⟨ls, hr⟩ := tl.stores _
    exact ih.trans (inv_run (tl.inv _) hr).2

/-- From when a record is counted, its bytes are where they are. -/
theorem Timeline.byte (tl : Timeline sz) (hlog : pre ++ [r] <+: (tl.writer t).log) {k : Nat} (hk : k < r.bytes.length) :
    tl.mem t (headerSize + (encode pre).length + k) = r.bytes[k] := by
  obtain ⟨post, hpost⟩ := hlog
  have hrecords := (tl.inv t).records
  rw [← Mem.slice_shift, ← Mem.starts_iff_slice, Writer.stored, ← hpost] at hrecords
  simp only [List.append_assoc, List.singleton_append, encode_append, encode_cons] at hrecords
  have hbytes := hrecords.right.left
  rw [Mem.shift_shift] at hbytes
  exact hbytes k hk

theorem csvLoop_spec (tl : Timeline sz) (pace : Nat → Nat → Nat) {fuel : Nat} (hpre : pre <+: (tl.writer now).log)
    (hfuel : sz < fuel + pre.length) : ∃ t post, now ≤ t ∧ (tl.writer t).log = pre ++ post ∧
      csvLoop tl.mem pace fuel now (headerSize + (encode pre).length) pre.length =
        some (post.map line, t) := by
  induction fuel generalizing now pre with
  | zero =>
    have hlen := hpre.length_le
    have hle := (tl.inv now).length_le
    omega
  | succ fuel ih =>
    have hcount : (tl.mem now).u64 16 = (tl.writer now).log.length := (tl.inv now).count
    obtain ⟨rest, hrest⟩ := hpre
    cases rest with
    | nil =>
      rw [List.append_nil] at hrest
      refine ⟨now, [], Nat.le_refl _, by rw [List.append_nil, hrest], ?_⟩
      rw [csvLoop, hcount, hrest, if_neg (Nat.lt_irrefl _)]
      rfl
    | cons r rest =>
      have hnow : pre ++ [r] <+: (tl.writer now).log := ⟨rest, by simpa using hrest⟩
      have hlater (d : Nat) : pre ++ [r] <+: (tl.writer (now + d)).log :=
        hnow.trans (tl.log_prefix (Nat.le_add_right ..))
      have hlt : pre.length < (tl.mem now).u64 16 := by
        rw [hcount, ← hrest]
        simp
      have htype : DataType.ofChar (tl.mem (now + pace pre.length 0) (headerSize + (encode pre).length)) =
          some r.type := by
        have hchar := tl.byte (hlater (pace pre.length 0)) (k := 0) (by simp)
        rw [Nat.add_zero] at hchar
        rw [hchar]
        exact DataType.ofChar_char r.type
      have hdata : ((List.range r.type.size).map fun k => tl.mem (now + pace pre.length (k + 1))
          (headerSize + (encode pre).length + 1 + k)) = r.data := by
        refine List.ext_getElem (by simp [r.length_data]) fun k hk _ => ?_
        rw [List.length_map, List.length_range] at hk
        have hbyte := tl.byte (hlater (pace pre.length (k + 1))) (k := k + 1) (by simpa using hk)
        rw [List.getElem_map, List.getElem_range, Nat.add_assoc _ 1 k, Nat.add_comm 1 k, hbyte]
        rfl
      obtain ⟨t, post, hle, hlog, hloop⟩ := ih (hlater (pace pre.length (r.type.size + 1))) (by simp; omega)
      refine ⟨t, r :: post, by omega, by rw [hlog]; simp, ?_⟩
      rw [csvLoop, if_pos hlt]
      simp only [htype, hdata]
      simp only [encode_append, encode_cons, encode_nil, List.append_nil, List.length_append, r.length_bytes,
        List.length_cons, List.length_nil, Nat.zero_add, ← Nat.add_assoc] at hloop ⊢
      rw [hloop]
      rfl

/-- The dump comes to an end. It is the whole log as it stood at one tick of the dump, with every
record that was counted before the dump began, and each record is whole. -/
theorem csv_while_appending (tl : Timeline sz) (pace : Nat → Nat → Nat) (now : Nat) {fuel : Nat} (hfuel : sz < fuel) :
    ∃ t, now ≤ t ∧ (tl.writer now).log <+: (tl.writer t).log ∧
      dumpSharedMemoryToFileCsv tl.mem pace fuel now = some ((tl.writer t).log.map line, t) := by
  have hnil : [] <+: (tl.writer now).log := List.nil_prefix
  obtain ⟨t, post, hle, hlog, hloop⟩ := csvLoop_spec tl pace hnil hfuel
  refine ⟨t, hle, tl.log_prefix hle, ?_⟩
  rw [List.nil_append] at hlog
  rw [hlog]
  exact hloop

/-- The segment of 1000 bytes, and behind a record. -/
def empty : Writer := ⟨.create 1000 fun _ => 0, .idle, []⟩

def behind (w : Writer) (r : Record) : Writer := ⟨(appendRecord w.seg r).1, .idle, w.log ++ [r]⟩

theorem run_behind (h : Inv sz w) (hpc : w.pc = .idle) (hroom : headerSize + (encode (w.log ++ [r])).length ≤ sz) :
    (machine sz).run w (stores r) = some (behind w r) ∧ Inv sz (behind w r) := by
  have hstored : w.stored = w.log := by simp [Writer.stored, hpc, Pc.uncounted]
  have hr := run_append (r := r) h hpc (by rw [h.used, hstored]; simpa [Nat.add_assoc] using hroom)
  exact ⟨hr, (inv_run h hr).1⟩

/-- A record is counted while the dump is at the one before it: both are in the dump. -/
theorem csv_while_appending_two : ∃ tl : Timeline 1000, (tl.writer 1).log = [zeroes .nanoShfeMd] ∧
    (tl.writer 2).log = [zeroes .nanoShfeMd, zeroes .nanoGfexMd] ∧
    ∃ t, 1 ≤ t ∧ (tl.writer 1).log <+: (tl.writer t).log ∧
      dumpSharedMemoryToFileCsv tl.mem (fun _ k => k + 1) 1001 1 = some ((tl.writer t).log.map line, t) := by
  have h0 : (machine 1000).init empty := ⟨by decide, by decide, _, rfl⟩
  obtain ⟨hr1, h1⟩ := run_behind (r := zeroes .nanoShfeMd) (inv_init h0) rfl (by decide +kernel)
  obtain ⟨hr2, h2⟩ := run_behind (r := zeroes .nanoGfexMd) h1 rfl (by decide +kernel)
  refine ⟨⟨fun t => if t = 0 then empty else if t = 1 then behind empty (zeroes .nanoShfeMd) else
    behind (behind empty (zeroes .nanoShfeMd)) (zeroes .nanoGfexMd), ⟨_, [], h0, rfl⟩, fun t => ?_⟩, rfl, rfl,
    csv_while_appending _ _ _ (by decide)⟩
  by_cases ht : t = 0
  · exact ⟨_, by simpa [ht] using hr1⟩
  by_cases ht' : t = 1
  · exact ⟨_, by simpa [ht'] using hr2⟩
  · exact ⟨[], by simp [ht, ht']⟩

end MdInfoSet.L5.ShmLive
