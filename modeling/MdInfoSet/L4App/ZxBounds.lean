import MdInfoSet.Core.Spans
import MdInfoSet.Core.WhileLoop
import MdInfoSet.L4App.ZxGfex

/-!
# What `DecodeMsg` reads

The loop of `DecodeMsg` (src/zx_gfex_md/src/zx_gfex_md.cpp:593-716), round by round, with the
places of the packet each round reads. The test of the loop is for one more head; `iMsgSize`
and the length of a `Zx_BestDeep` are not compared with what is left of the packet, and
`arrGenTime`, whose 12 characters fill the field, is logged as a C string. `data_len` and
`iProcSize` are `int32_t`; their difference, which decides the loop, is right also where
`iProcSize` wraps.

* `ends`: the loop ends on any packet, since each round takes a head.

**Exact condition** (`decodeMsg_inBounds_iff`). All that is read lies in the packet exactly if
it has 2 bytes and each message the loop comes to `Fits`. The hex dump of every message may
be counted or not.

**Counterexample.** A `Zx_BestDeep` cut off after 6 of its bytes (`truncated_read`).
-/
namespace MdInfoSet.L4.ZxBounds

open MdInfoSet.L1.ZxMessage MdInfoSet.L4.Publish MdInfoSet.L4.ZxGfex
open MdInfoSet.WhileLoop (Round Ends Visits Throughout)

/-! ## Rounds -/

structure LoopState where
  iProcSize : Nat
  msgs : List MarketData

section Rounds

variable (reset : MarketData) (getNanoseconds : Nat → UInt64) (data : Mem)

/-- The head at an offset. -/
def msgHead (p : Nat) : ZxMsgHead := ZxMsgHead.ofMem data p

/-- The message behind the one at `p`. -/
def nextHead (p : Nat) : Nat := p + zxMsgHeadSize + (msgHead data p).iMsgSize

/-- The message with its head at `p` is a `Zx_BestDeep`. -/
def IsBestDeep (p : Nat) : Prop := (msgHead data p).iMsgType = msgZxBestDeep

instance (p : Nat) : Decidable (IsBestDeep data p) := by unfold IsBestDeep; infer_instance

/-- Its time is after 15:00. -/
def Late (p : Nat) : Prop := timeStrToUtcS (ZxBestDeep.ofMem data (p + zxMsgHeadSize)).arrGenTime > closeTime

instance (p : Nat) : Decidable (Late data p) := by unfold Late; infer_instance

/-- The loop goes on behind the message: it is of a declared type and no late quote. -/
def Passes (p : Nat) : Prop :=
  if IsBestDeep data p then ¬ Late data p
  else msgZxBestDeep < (msgHead data p).iMsgType ∧ (msgHead data p).iMsgType ≤ msgZxMatchPriceQty

instance (p : Nat) : Decidable (Passes data p) := by unfold Passes; infer_instance

/-- The records one message makes. -/
def published (p : Nat) : List MarketData :=
  if IsBestDeep data p then
    [quote reset (getNanoseconds (p + zxMsgHeadSize)) (ZxBestDeep.ofMem data (p + zxMsgHeadSize))] else []

/-- The body of the loop (cpp:605-715). -/
def decodeRound (dataLen : Int) (s : LoopState) : Round LoopState (List MarketData) :=
  if dataLen - (s.iProcSize + zxMsgHeadSize) ≤ 0 then .leave s.msgs
  else if Passes data s.iProcSize then
    .next ⟨nextHead data s.iProcSize, s.msgs ++ published reset getNanoseconds data s.iProcSize⟩
  else .leave s.msgs

end Rounds

section Loop

variable {reset : MarketData} {getNanoseconds : Nat → UInt64} {data : Mem} {dataLen : Int}

theorem decodeRound_stop {s : LoopState} (h : dataLen ≤ s.iProcSize + zxMsgHeadSize) :
    decodeRound reset getNanoseconds data dataLen s = .leave s.msgs := by
  rw [decodeRound, if_pos (by omega)]

theorem decodeRound_pass {s : LoopState} (h : s.iProcSize + zxMsgHeadSize < dataLen) (hp : Passes data s.iProcSize) :
    decodeRound reset getNanoseconds data dataLen s =
      .next ⟨nextHead data s.iProcSize, s.msgs ++ published reset getNanoseconds data s.iProcSize⟩ := by
  rw [decodeRound, if_neg (by omega), if_pos hp]

theorem decodeRound_leave {s : LoopState} (h : s.iProcSize + zxMsgHeadSize < dataLen)
    (hp : ¬ Passes data s.iProcSize) : decodeRound reset getNanoseconds data dataLen s = .leave s.msgs := by
  rw [decodeRound, if_neg (by omega), if_neg hp]

/-- `decodeLoop`, one message. -/
theorem decodeLoop_head {p : Nat} (h : p + zxMsgHeadSize < dataLen) :
    decodeLoop reset getNanoseconds data dataLen p =
      if Passes data p then
        published reset getNanoseconds data p ++ decodeLoop reset getNanoseconds data dataLen (nextHead data p)
      else [] := by
  rw [decodeLoop, if_neg (by omega)]
  by_cases htype : IsBestDeep data p
  · have htype' : (ZxMsgHead.ofMem data p).iMsgType = msgZxBestDeep := htype
    by_cases hlate : Late data p
    · have hlate' : timeStrToUtcS (ZxBestDeep.ofMem data (p + zxMsgHeadSize)).arrGenTime > closeTime := hlate
      simp [Passes, htype, htype', hlate, hlate']
    · have hlate' : ¬ timeStrToUtcS (ZxBestDeep.ofMem data (p + zxMsgHeadSize)).arrGenTime > closeTime := hlate
      simp [Passes, published, nextHead, msgHead, htype, htype', hlate, hlate']
  · have htype' : ¬ (ZxMsgHead.ofMem data p).iMsgType = msgZxBestDeep := htype
    simp [Passes, published, nextHead, msgHead, htype, htype']

/-- `decodeLoop` is the loop of these rounds. -/
theorem decodeLoop_ends (s : LoopState) (r : List MarketData) :
    Ends (decodeRound reset getNanoseconds data dataLen) s r ↔
      r = s.msgs ++ decodeLoop reset getNanoseconds data dataLen s.iProcSize := by
  induction hn : (dataLen - s.iProcSize).toNat using Nat.strongRecOn generalizing s with
  | _ n ih =>
    subst hn
    by_cases h : s.iProcSize + zxMsgHeadSize < dataLen
    · rw [decodeLoop_head h]
      by_cases hp : Passes data s.iProcSize
      · rw [WhileLoop.ends_next (decodeRound_pass h hp), ih _ ?_ _ rfl, if_pos hp, List.append_assoc]
        simp only [nextHead, zxMsgHeadSize] at h ⊢
        omega
      · rw [WhileLoop.ends_leave (decodeRound_leave h hp), if_neg hp, List.append_nil]
    · rw [WhileLoop.ends_leave (decodeRound_stop (by omega)), decodeLoop_end (by omega), List.append_nil]

/-- The loop ends. -/
theorem ends (s : LoopState) : ∃ r, Ends (decodeRound reset getNanoseconds data dataLen) s r :=
  ⟨_, (decodeLoop_ends s _).mpr rfl⟩

end Loop

/-! ## The bytes a call reads -/

/-- The fields of a `Zx_BestDeep` that are read when it is in time, with their lengths. -/
def bestDeepFields : List (Nat × Nat) :=
  [(39, 8), (47, 8), (55, 8), (67, 4), (71, 8), (79, 4), (83, 4), (99, 8), (107, 8), (123, 8), (147, 8), (155, 8)] ++
    (List.range 5).flatMap (fun i => [(171 + 16 * i, 8), (171 + 16 * i + 8, 4)]) ++
    (List.range 5).flatMap fun i => [(251 + 16 * i, 8), (251 + 16 * i + 8, 4)]

/-- What is read of a `Zx_BestDeep`: the time, the time and the name as they are logged, and
the fields (cpp:621-681). -/
def bestDeepReads (data : Mem) (p : Nat) : List Span :=
  let payload := p + zxMsgHeadSize
  [.bytes (payload + 27 : Nat) 12, .cstr (payload + 27), .cstr (payload + 4)] ++
    if Late data p then [] else bestDeepFields.map fun f => .bytes (payload + f.1 : Nat) f.2

/-- What one round reads; `dumped` says if what the hex dump reads is counted. -/
def roundReads (dumped : Bool) (data : Mem) (dataLen : Int) (p : Nat) : List Span :=
  if dataLen - (p + zxMsgHeadSize) ≤ 0 then []
  else
    [.bytes (p + 4 : Nat) 2, .bytes (p + 6 : Nat) 2] ++
      (if dumped = true then [.bytes p (msgHead data p).iMsgSize] else []) ++
      if IsBestDeep data p then bestDeepReads data p else []

/-- What a call reads lies in the packet, `iPktSize` first. -/
def StaysInside (dumped : Bool) (reset : MarketData) (getNanoseconds : Nat → UInt64) (data : Mem) (dataLen : Nat) :
    Prop :=
  (Span.bytes 0 2).Within data dataLen ∧
  Throughout (decodeRound reset getNanoseconds data dataLen)
    (fun s => ∀ span ∈ roundReads dumped data dataLen s.iProcSize, span.Within data dataLen) ⟨zxPacketHeadSize, []⟩

/-! ## The condition on a packet -/

/-- From the head at the first offset the loop gets to the head at the second. -/
inductive HeadsFrom (data : Mem) (dataLen : Nat) : Nat → Nat → Prop where
  | here {p : Nat} (h : p + zxMsgHeadSize < dataLen) : HeadsFrom data dataLen p p
  | pass {p p' : Nat} (h : p + zxMsgHeadSize < dataLen) (hp : Passes data p)
    (rest : HeadsFrom data dataLen (nextHead data p) p') : HeadsFrom data dataLen p p'

/-- A quote has its time, and a zero at or behind this, in the packet, and the fields up to
the last that is read unless it is late; what is dumped is `iMsgSize` bytes from the head. -/
structure Fits (dumped : Bool) (data : Mem) (dataLen p : Nat) : Prop where
  dump : dumped = true → p + (msgHead data p).iMsgSize ≤ dataLen
  time : IsBestDeep data p → p + 47 ≤ dataLen
  zero : IsBestDeep data p → ∃ z, p + 35 ≤ z ∧ z < dataLen ∧ data z = 0
  fields : IsBestDeep data p → ¬ Late data p → p + 335 ≤ dataLen

theorem headsFrom_iff {data : Mem} {dataLen p : Nat} {P : Nat → Prop} (h : p + zxMsgHeadSize < dataLen) :
    (∀ p', HeadsFrom data dataLen p p' → P p') ↔
      P p ∧ (Passes data p → ∀ p', HeadsFrom data dataLen (nextHead data p) p' → P p') := by
  constructor
  · intro hall
    exact ⟨hall p (.here h), fun hp p' hp' => hall p' (.pass h hp hp')⟩
  · intro ⟨hp, hrest⟩ p' hp'
    cases hp' with
    | here => exact hp
    | pass _ hpass hnext => exact hrest hpass p' hnext

theorem not_headsFrom {data : Mem} {dataLen p p' : Nat} (h : dataLen ≤ p + zxMsgHeadSize) :
    ¬ HeadsFrom data dataLen p p' := by
  intro hp
  cases hp with
  | here hlt => omega
  | pass hlt => omega

/-! ## One round -/

theorem bestDeepFields_le : ∀ f ∈ bestDeepFields, f.2 ≠ 0 ∧ f.1 + f.2 ≤ 327 := by decide

theorem last_mem_bestDeepFields : (323, 4) ∈ bestDeepFields := by decide

theorem fields_within_iff {data : Mem} {dataLen payload : Nat} :
    (∀ span ∈ bestDeepFields.map (fun f => Span.bytes (payload + f.1 : Nat) f.2), span.Within data dataLen) ↔
      payload + 327 ≤ dataLen := by
  rw [List.forall_mem_map]
  simp only [Span.within_bytes_iff]
  constructor
  · intro h
    have hlast := h _ last_mem_bestDeepFields
    dsimp only at hlast
    omega
  · intro h f hf
    have hle := bestDeepFields_le f hf
    omega

theorem bestDeepReads_within_iff {data : Mem} {dataLen p : Nat} :
    (∀ span ∈ bestDeepReads data p, span.Within data dataLen) ↔
      p + 47 ≤ dataLen ∧ (∃ z, p + 35 ≤ z ∧ z < dataLen ∧ data z = 0) ∧ (¬ Late data p → p + 335 ≤ dataLen) := by
  have hfields : (∀ span ∈ (if Late data p then [] else
      bestDeepFields.map fun f => Span.bytes (p + zxMsgHeadSize + f.1 : Nat) f.2), span.Within data dataLen) ↔
      (¬ Late data p → p + 335 ≤ dataLen) := by
    by_cases hlate : Late data p
    · simp [hlate]
    · rw [if_neg hlate, fields_within_iff, imp_iff_right hlate, zxMsgHeadSize]
  unfold bestDeepReads
  dsimp only
  rw [List.forall_mem_append, hfields]
  simp only [List.forall_mem_cons, List.not_mem_nil, false_imp_iff, implies_true, and_true, Span.within_bytes_iff,
    Span.within_cstr_iff, zxMsgHeadSize]
  constructor
  · rintro ⟨⟨htime, ⟨z, hz, hlt, hzero⟩, -⟩, hrest⟩
    exact ⟨by omega, ⟨z, by omega, hlt, hzero⟩, hrest⟩
  · rintro ⟨htime, ⟨z, hz, hlt, hzero⟩, hrest⟩
    -- the zero behind the time ends the name as well
    exact ⟨⟨by omega, ⟨z, by omega, hlt, hzero⟩, ⟨z, by omega, hlt, hzero⟩⟩, hrest⟩

/-- What a round reads lies in the packet exactly if its message fits. -/
theorem roundReads_within_iff {dumped : Bool} {data : Mem} {dataLen p : Nat} (h : p + zxMsgHeadSize < dataLen) :
    (∀ span ∈ roundReads dumped data dataLen p, span.Within data dataLen) ↔ Fits dumped data dataLen p := by
  have hdump : (∀ span ∈ (if dumped = true then [Span.bytes p (msgHead data p).iMsgSize] else []),
      span.Within data dataLen) ↔ (dumped = true → p + (msgHead data p).iMsgSize ≤ dataLen) := by
    cases dumped with
    | false => simp
    | true =>
      simp only [if_true, List.forall_mem_singleton, Span.within_bytes_iff, true_imp_iff]
      omega
  have hbest : (∀ span ∈ (if IsBestDeep data p then bestDeepReads data p else []), span.Within data dataLen) ↔
      (IsBestDeep data p → ∀ span ∈ bestDeepReads data p, span.Within data dataLen) := by
    by_cases htype : IsBestDeep data p <;> simp [htype]
  have hheads : ∀ span ∈ [Span.bytes (p + 4 : Nat) 2, .bytes (p + 6 : Nat) 2], span.Within data dataLen := by
    simp only [zxMsgHeadSize] at h
    simp only [List.forall_mem_cons, List.not_mem_nil, false_imp_iff, implies_true, and_true, Span.within_bytes_iff]
    omega
  rw [roundReads, if_neg (by omega), List.forall_mem_append, List.forall_mem_append, hdump, hbest,
    bestDeepReads_within_iff]
  constructor
  · rintro ⟨⟨-, hd⟩, hb⟩
    exact ⟨hd, fun ht => (hb ht).1, fun ht => (hb ht).2.1, fun ht => (hb ht).2.2⟩
  · intro hfits
    exact ⟨⟨hheads, hfits.dump⟩, fun ht => ⟨hfits.time ht, hfits.zero ht, hfits.fields ht⟩⟩

/-! ## A packet -/

section Packet

variable {dumped : Bool} {reset : MarketData} {getNanoseconds : Nat → UInt64} {data : Mem} {dataLen : Nat}

theorem throughout_iff (s : LoopState) :
    Throughout (decodeRound reset getNanoseconds data dataLen)
        (fun s => ∀ span ∈ roundReads dumped data dataLen s.iProcSize, span.Within data dataLen) s ↔
      ∀ p, HeadsFrom data dataLen s.iProcSize p → Fits dumped data dataLen p := by
  induction hn : dataLen - s.iProcSize using Nat.strongRecOn generalizing s with
  | _ n ih =>
    subst hn
    by_cases h : s.iProcSize + zxMsgHeadSize < dataLen
    · have hlt : (s.iProcSize + zxMsgHeadSize : Int) < dataLen := by omega
      rw [headsFrom_iff h, ← roundReads_within_iff h]
      by_cases hp : Passes data s.iProcSize
      · have hnext := ih (dataLen - nextHead data s.iProcSize)
          (by simp only [nextHead, zxMsgHeadSize] at h ⊢; omega)
          ⟨nextHead data s.iProcSize, s.msgs ++ published reset getNanoseconds data s.iProcSize⟩ rfl
        rw [WhileLoop.throughout_next (decodeRound_pass hlt hp), hnext]
        simp [hp]
      · rw [WhileLoop.throughout_leave (decodeRound_leave hlt hp)]
        simp [hp]
    · have hle : (dataLen : Int) ≤ s.iProcSize + zxMsgHeadSize := by omega
      rw [WhileLoop.throughout_leave (decodeRound_stop hle), roundReads, if_pos (by omega)]
      simp [not_headsFrom (Nat.le_of_not_lt h)]

end Packet

/-- **Exact condition**, for any packet: the loop ends, and all that is read lies in the packet
if and only if it has the bytes of `iPktSize` and each message the loop comes to fits. -/
theorem decodeMsg_inBounds_iff (dumped : Bool) (reset : MarketData) (getNanoseconds : Nat → UInt64) (data : Mem)
    (dataLen : Nat) :
    ((∃ msgs, Ends (decodeRound reset getNanoseconds data dataLen) ⟨zxPacketHeadSize, []⟩ msgs) ∧
        StaysInside dumped reset getNanoseconds data dataLen) ↔
      2 ≤ dataLen ∧ ∀ p, HeadsFrom data dataLen zxPacketHeadSize p → Fits dumped data dataLen p := by
  rw [and_iff_right (ends _), StaysInside, throughout_iff, Span.within_bytes_iff]
  refine and_congr_left fun _ => ?_
  omega

/-- The heads of a packet and of a `Zx_BestDeep`, and 6 bytes of this. -/
def truncated : Mem := Mem.ofBytes [0x51, 0x01, 0, 0, 0, 0, 0, 0, 0, 0, 0x4b, 0x01, 1, 0]

/-- **Counterexample.** Of these 20 bytes more is read than there is, dumped or not. -/
theorem truncated_read : ¬ ∀ (dumped : Bool) (reset : MarketData) (getNanoseconds : Nat → UInt64) (data : Mem)
    (dataLen : Nat), StaysInside dumped reset getNanoseconds data dataLen := by
  intro h
  have hfits := (throughout_iff _).mp (h false .zero (fun _ => 0) truncated 20).2 _ (.here (by decide))
  exact absurd (hfits.time (by decide)) (by decide)

end MdInfoSet.L4.ZxBounds
