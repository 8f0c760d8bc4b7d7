import MdInfoSet.Core.Spans
import MdInfoSet.L4App.SzseOption

/-!
# What the SZSE packet loop reads

The two loops of `QxSzMdEtfOption::OnData`
(src/szse_etf_mdsz/src/qx_sz_md_etf_option.cpp:253-466) with the places of the datagram they
read. The rounds are counted by `msgNum` and `NoMDEntries`, the cursor moves by `MsgLen` and
`NoOrders`; `len` is not looked at.

**Exact condition** (`onData_inBounds_iff`). All the loops read lies in the datagram exactly
if each message the walk comes to `Fits`. A message it does not pass is looked at again in
the rounds that are left, so that it is the last.

**Counterexample.** A snapshot cut off in front of its entry (`entry_read_behind`).
-/
namespace MdInfoSet.L4.SzseBounds

open MdInfoSet.L1.SzseSnapshot MdInfoSet.L4.SzseOption

/-! ## The bytes read -/

/-- What is read of the entry `e` bytes from the start of the datagram (cpp:302-444): type and
number of orders of each, level, price and size as the type has it. -/
def entryReads (data : Mem) (e : Int) : List Span :=
  let entry := SzseMDEntry300111.ofMem data e.toNat
  let px := Span.bytes (e + 2) 8
  let size := Span.bytes (e + 10) 8
  let level := Span.bytes (e + 18) 2
  [.bytes e 2] ++
    (if entry.mdEntryType = mdEntryType0 ∨ entry.mdEntryType = mdEntryType1 then
      if 1 ≤ entry.mdPriceLevel ∧ entry.mdPriceLevel ≤ 5 then [level, px, size]
      else [level, px, size, .bytes (e + 20) 8]
    else if entry.mdEntryType ∈ [mdEntryType2, mdEntryType4, mdEntryType7, mdEntryType8, mdEntryTypeXe, mdEntryTypeXf]
    then [px]
    else if entry.mdEntryType = mdEntryTypeXg then [size]
    else []) ++
    [.bytes (e + 28) 4]

/-- Where the entries of the message at `o` are, with `n` of them left. -/
def entryOffsets (data : Mem) (o : Nat) : Nat → Int → List Int
  | 0, _ => []
  | n + 1, readLen =>
    (o + readLen) :: entryOffsets data o n
      (Int.bmod (readLen + szseMDEntry300111Size + 8 * (SzseMDEntry300111.ofMem data (o + readLen).toNat).noOrders)
        (2 ^ 32))

section Packet

variable (filter : Bytes → Bool) (data : Mem)

/-- What is read of a message that passes. -/
def snapshotReads (o : Nat) : List Span :=
  [.bytes (o + 8 : Nat) 8, .bytes (o + 41 : Nat) 8, .bytes (o + 57 : Nat) 8, .bytes (o + 65 : Nat) 8,
    .bytes (o + 73 : Nat) 4] ++
    (entryOffsets data o (SzseSnapShot.ofMem data o).noMdEntries szseSnapShotSize).flatMap (entryReads data)

/-- What one round reads with the cursor at `o`: the head, the channel of a snapshot, the
instrument of an option channel, the rest if it is subscribed. -/
def roundReads (o : Nat) : List Span :=
  [.bytes o 4, .bytes (o + 4 : Nat) 4] ++
    if (SzseMsgHead.ofMem data o).msgType ≠ 300111 then []
    else
      .bytes (o + 16 : Nat) 2 ::
        if (SzseSnapShot.ofMem data o).channelNo / 10 ≠ 105 then []
        else
          .bytes (o + 21 : Nat) 8 ::
            if filter (SzseSnapShot.ofMem data o).securityId then snapshotReads data o else []

/-- What the loop reads with `n` rounds left and the cursor at `o`, as `packetLoop` goes on. -/
def packetReads (o : Nat) : Nat → List Span
  | 0 => []
  | n + 1 =>
    roundReads filter data o ++
      if (SzseMsgHead.ofMem data o).msgType ≠ 300111 then packetReads o n
      else if (SzseSnapShot.ofMem data o).channelNo / 10 ≠ 105 then packetReads o n
      else if filter (SzseSnapShot.ofMem data o).securityId then packetReads (o + stride data o) n
      else []

/-- What both loops read of a datagram. -/
def onDataReads (belongTo : Nat → Nat → Bool) : List Span :=
  if belongTo (data.u32 30) (data.u16 36) then packetReads filter data 48 (myTransU16 data 46) else []

/-! ## The condition on a datagram -/

/-- With `n` rounds left and the cursor at the first offset, the walk comes to the message at
the second. -/
inductive ComesTo : Nat → Nat → Nat → Prop where
  | here {n o : Nat} : ComesTo (n + 1) o o
  | pass {n o o' : Nat} (hp : passes filter data o = true) (rest : ComesTo n (o + stride data o) o') :
    ComesTo (n + 1) o o'

/-- As much of a message as is looked at lies in the datagram: the head, a snapshot up to its
channel, one of an option channel up to its instrument, all of one that is subscribed, and
each of its entries up to `NoOrders`. -/
structure Fits (len o : Nat) : Prop where
  head : o + 8 ≤ len
  channel : (SzseMsgHead.ofMem data o).msgType = 300111 → o + 18 ≤ len
  instrument : (SzseMsgHead.ofMem data o).msgType = 300111 → (SzseSnapShot.ofMem data o).channelNo / 10 = 105 →
    o + 29 ≤ len
  snapshot : passes filter data o = true → o + szseSnapShotSize ≤ len
  entries : passes filter data o = true →
    ∀ e ∈ entryOffsets data o (SzseSnapShot.ofMem data o).noMdEntries szseSnapShotSize,
      0 ≤ e ∧ e + szseMDEntry300111Size ≤ len

end Packet

variable {filter : Bytes → Bool} {data : Mem} {len : Nat}

theorem comesTo_iff {n o : Nat} {P : Nat → Prop} :
    (∀ o', ComesTo filter data (n + 1) o o' → P o') ↔
      P o ∧ (passes filter data o = true → ∀ o', ComesTo filter data n (o + stride data o) o' → P o') := by
  constructor
  · intro hall
    exact ⟨hall o .here, fun hp o' ho' => hall o' (.pass hp ho')⟩
  · intro ⟨ho, hrest⟩ o' ho'
    cases ho' with
    | here => exact ho
    | pass hp hnext => exact hrest hp o' hnext

theorem not_comesTo {o o' : Nat} : ¬ ComesTo filter data 0 o o' := by
  intro h
  cases h

/-! ## One round -/

/-- What is read of an entry is of its record. -/
theorem entryReads_fields {e : Int} {span : Span} (h : span ∈ entryReads data e) :
    ∃ a l : Nat, span = .bytes (e + a) l ∧ a + l ≤ szseMDEntry300111Size := by
  unfold entryReads at h
  dsimp only at h
  rcases List.mem_append.mp h with h | h
  · rcases List.mem_append.mp h with h | h
    · rw [List.mem_singleton] at h
      exact ⟨0, 2, by simpa using h, by decide⟩
    · have hfields : span ∈ [Span.bytes (e + 18) 2, .bytes (e + 2) 8, .bytes (e + 10) 8, .bytes (e + 20) 8] := by
        split at h
        · split at h
          · exact List.mem_of_mem_take (i := 3) h
          · exact h
        · split at h
          · exact List.mem_cons_of_mem _ (List.mem_cons.mpr (.inl (List.mem_singleton.mp h)))
          · split at h
            · rw [List.mem_singleton.mp h]
              simp
            · cases h
      simp only [List.mem_cons, List.not_mem_nil, or_false] at hfields
      rcases hfields with h | h | h | h
      · exact ⟨18, 2, h, by decide⟩
      · exact ⟨2, 8, h, by decide⟩
      · exact ⟨10, 8, h, by decide⟩
      · exact ⟨20, 8, h, by decide⟩
  · exact ⟨28, 4, List.mem_singleton.mp h, by decide⟩

/-- The type is the first that is read of an entry, the number of orders the last. -/
theorem entryReads_within_iff {e : Int} :
    (∀ span ∈ entryReads data e, span.Within data len) ↔ 0 ≤ e ∧ e + szseMDEntry300111Size ≤ len := by
  constructor
  · intro h
    have hfirst := Span.within_bytes_iff.mp (h (.bytes e 2) (by simp [entryReads]))
    have hlast := Span.within_bytes_iff.mp (h (.bytes (e + 28) 4) (by simp [entryReads]))
    simp only [szseMDEntry300111Size]
    omega
  · intro ⟨hpos, hle⟩ span hspan
    obtain ⟨a, l, rfl, hal⟩ := entryReads_fields hspan
    rw [Span.within_bytes_iff]
    omega

theorem snapshotReads_within_iff {o : Nat} :
    (∀ span ∈ snapshotReads data o, span.Within data len) ↔
      o + szseSnapShotSize ≤ len ∧
        ∀ e ∈ entryOffsets data o (SzseSnapShot.ofMem data o).noMdEntries szseSnapShotSize,
          0 ≤ e ∧ e + szseMDEntry300111Size ≤ len := by
  rw [snapshotReads, List.forall_mem_append]
  refine and_congr ?_ ?_
  · simp only [List.forall_mem_cons, List.not_mem_nil, false_imp_iff, implies_true, and_true, Span.within_bytes_iff,
      szseSnapShotSize]
    omega
  · simp only [← @entryReads_within_iff data len, List.mem_flatMap]
    exact ⟨fun h e he span hs => h span ⟨e, he, hs⟩, fun h span ⟨e, he, hs⟩ => h e he span hs⟩

/-- What a round reads lies in the datagram exactly if its message fits. -/
theorem roundReads_within_iff {o : Nat} :
    (∀ span ∈ roundReads filter data o, span.Within data len) ↔ Fits filter data len o := by
  have hhead : (∀ span ∈ [Span.bytes o 4, .bytes (o + 4 : Nat) 4], span.Within data len) ↔ o + 8 ≤ len := by
    simp only [List.forall_mem_cons, List.not_mem_nil, false_imp_iff, implies_true, and_true, Span.within_bytes_iff]
    omega
  have hchannel : (Span.bytes (o + 16 : Nat) 2).Within data len ↔ o + 18 ≤ len := by
    rw [Span.within_bytes_iff]
    omega
  have hinst : (Span.bytes (o + 21 : Nat) 8).Within data len ↔ o + 29 ≤ len := by
    rw [Span.within_bytes_iff]
    omega
  rw [roundReads, List.forall_mem_append, hhead]
  by_cases htype : (SzseMsgHead.ofMem data o).msgType = 300111
  case neg =>
    have hp : ¬ passes filter data o = true := fun h => htype (passes_iff.mp h).1
    simp only [htype, ne_eq, not_false_eq_true, if_true, List.not_mem_nil, false_imp_iff, implies_true, and_true]
    exact ⟨fun h => ⟨h, fun ht => absurd ht htype, fun ht => absurd ht htype, fun h => absurd h hp,
      fun h => absurd h hp⟩, fun h => h.head⟩
  by_cases hch : (SzseSnapShot.ofMem data o).channelNo / 10 = 105
  case neg =>
    have hp : ¬ passes filter data o = true := fun h => hch (passes_iff.mp h).2.1
    simp only [htype, hch, ne_eq, not_true_eq_false, not_false_eq_true, if_true, if_false, List.forall_mem_singleton,
      hchannel]
    exact ⟨fun h => ⟨h.1, fun _ => h.2, fun _ h => absurd h hch, fun h => absurd h hp, fun h => absurd h hp⟩,
      fun h => ⟨h.head, h.channel htype⟩⟩
  by_cases hf : filter (SzseSnapShot.ofMem data o).securityId = true
  case neg =>
    have hp : ¬ passes filter data o = true := fun h => hf (passes_iff.mp h).2.2
    simp only [htype, hch, hf, ne_eq, not_true_eq_false, if_false, List.forall_mem_cons, List.not_mem_nil,
      false_imp_iff, implies_true, and_true, hchannel, hinst, Bool.false_eq_true]
    exact ⟨fun h => ⟨h.1, fun _ => h.2.1, fun _ _ => h.2.2, fun h => absurd h hp, fun h => absurd h hp⟩,
      fun h => ⟨h.head, h.channel htype, h.instrument htype hch⟩⟩
  have hp : passes filter data o = true := passes_iff.mpr ⟨htype, hch, hf⟩
  simp only [htype, hch, hf, ne_eq, not_true_eq_false, if_false, if_true, List.forall_mem_cons, hchannel, hinst,
    snapshotReads_within_iff]
  exact ⟨fun h => ⟨h.1, fun _ => h.2.1, fun _ _ => h.2.2.1, fun _ => h.2.2.2.1, fun _ => h.2.2.2.2⟩,
    fun h => ⟨h.head, h.channel htype, h.instrument htype hch, h.snapshot hp, h.entries hp⟩⟩

/-! ## A datagram -/

/-- The rounds behind a message that does not pass look at it again, or there are none. -/
theorem packetReads_stuck {o : Nat} (h : passes filter data o = false) (n : Nat) :
    ∀ span ∈ packetReads filter data o n, span ∈ roundReads filter data o := by
  induction n with
  | zero => exact nofun
  | succ n ih =>
    intro span hspan
    rw [packetReads] at hspan
    rcases List.mem_append.mp hspan with hspan | hspan
    · exact hspan
    · split at hspan
      · exact ih span hspan
      · split at hspan
        · exact ih span hspan
        · split at hspan
          · rename_i h1 h2 h3
            simp [passes, not_not.mp h1, not_not.mp h2, h3] at h
          · cases hspan

theorem packetReads_pass {o : Nat} (h : passes filter data o = true) (n : Nat) :
    packetReads filter data o (n + 1) =
      roundReads filter data o ++ packetReads filter data (o + stride data o) n := by
  have hp := passes_iff.mp h
  simp [packetReads, hp.1, hp.2.1, hp.2.2]

theorem packetReads_within_iff {o n : Nat} :
    (∀ span ∈ packetReads filter data o n, span.Within data len) ↔
      ∀ o', ComesTo filter data n o o' → Fits filter data len o' := by
  induction n generalizing o with
  | zero => exact ⟨fun _ o' h => absurd h not_comesTo, fun _ => nofun⟩
  | succ n ih =>
    rw [comesTo_iff, ← roundReads_within_iff]
    cases hp : passes filter data o with
    | true =>
      rw [packetReads_pass hp, List.forall_mem_append, ih]
      simp
    | false =>
      have hround : ∀ span ∈ roundReads filter data o, span ∈ packetReads filter data o (n + 1) := by
        intro span hspan
        rw [packetReads]
        exact List.mem_append_left _ hspan
      constructor
      · exact fun h => ⟨fun span hspan => h span (hround span hspan), nofun⟩
      · exact fun h span hspan => h.1 span (packetReads_stuck hp _ span hspan)

/-- **Exact condition**, for any datagram. -/
theorem onData_inBounds_iff (filter : Bytes → Bool) (belongTo : Nat → Nat → Bool) (data : Mem) (len : Nat) :
    (∀ span ∈ onDataReads filter data belongTo, span.Within data len) ↔
      (belongTo (data.u32 30) (data.u16 36) = true →
        ∀ o, ComesTo filter data (myTransU16 data 46) 48 o → Fits filter data len o) := by
  rw [onDataReads]
  split
  · rename_i hbelongs
    rw [packetReads_within_iff, imp_iff_right hbelongs]
  · rename_i hother
    exact ⟨fun _ h => absurd h hother, fun _ => nofun⟩

/-- **Counterexample.** Of the snapshot the 77 bytes in front of its entry are in the datagram. -/
theorem entry_read_behind : ¬ ∀ (filter : Bytes → Bool) (belongTo : Nat → Nat → Bool) (data : Mem) (len : Nat),
    belongTo (data.u32 30) (data.u16 36) = true →
    ∀ span ∈ onDataReads filter data belongTo, span.Within data len := by
  intro h
  have hfits := packetReads_within_iff.mp (h (fun _ => true) (fun _ _ => true) (frame [snapshotMsg]) 125 rfl) 48 .here
  exact absurd (hfits.entries (by decide +kernel) 125 (by decide +kernel)) (by decide)

end MdInfoSet.L4.SzseBounds
