import MdInfoSet.Core.Binary64
import MdInfoSet.L4App.ExanicHandlers
import MdInfoSet.L4App.GfexDispatch
import MdInfoSet.L4App.Suppression

/-!
# Snapshots of `gfex_md_exanic`

`DispatchMessage` (src/gfex_md_exanic/src/exanic_md.cpp:640-805) publishes a slot with
the prices of the day, the limits and the settlement data of the entry as it is then. A
message that came while the slot was in the ring has written its own there, so that a
Level-2 record may be put together from two messages.

The machine is the receiver with what it has published; its steps are whole calls of the
two handlers and of `DispatchMessage`, in any order. A slot remembers the message it was
made from (`Queued`).

* `KeepsDay`: what a message may write to an entry a slot waits for.
* `fresh_step`: the slots in the ring would be published with their own values, now and
  after an undisturbed call.
* **The condition is enough.** While every message meets it, each published Level-2 record
  is of one message (`snapshots_consistent`). After one that does not, dispatching what is in the
  ring publishes a record of two (`overwritten_published`).
-/
namespace MdInfoSet.L4.ExanicSnapshot

open MdInfoSet.L1.Lv2Quote MdInfoSet.L1.ExanicMessages MdInfoSet.L2.InstMap
open MdInfoSet.L4.ExanicHandlers MdInfoSet.L4.Publish
open MdInfoSet.L2.RingBuffer (l1Md l2Md)
open MdInfoSet.L4.GfexDispatch (bidOf askOf publishSide)

/-! ## `DispatchMessage` -/

/-- What both branches set before the depth (cpp:656-677). -/
def fillCommon (reset : MarketData) (slot : Slot) (cache : QuotaInfo) : MarketData :=
  let msgdata := slot.data
  { reset with
    localTimestamp := slot.timestamp0
    instrumentId := msgdata.inst
    exchangeId := fbExchangeGfex
    updateSec := updateSec slot.extime
    updateMsec := updateMsec slot.extime
    open' := convertPriceIfZero cache.open'
    close := convertPriceIfZero msgdata.lastPrice
    highPrice := convertPriceIfZero cache.high
    lowPrice := convertPriceIfZero cache.low
    lastPrice := convertPriceIfZero msgdata.lastPrice
    upperLimitPrice := convertPriceIfZero cache.upper
    downLimitPrice := convertPriceIfZero cache.lower
    preOpenInterest := convertPriceIfZero (Float.ofInt cache.lastOpeninterest.toInt)
    preSettlement := convertPriceIfZero cache.lastSettlePrice
    volume := msgdata.volume
    turnOver := msgdata.turnover
    openInterest := Float.ofInt msgdata.openinterest.toInt }

/-- mirrors src/gfex_md_exanic/src/exanic_md.cpp:640-805
The record passed to `on_msg`, if there is one. -/
def dispatchMessage (reset : MarketData) (r : Receiver) (slot : Slot) : Option MarketData :=
  let msgdata := slot.data
  (entryOf r msgdata.inst).bind fun cache =>
    let fbMd := fillCommon reset slot cache
    if slot.msgType = l1Md then
      some { fbMd with
        maxDepth := 1
        iopv := iopvTagLv1
        askPrice := Function.update fbMd.askPrice 0 (convertPriceIfVolumeZero (msgdata.ap 0) (msgdata.av 0))
        askVolume := Function.update fbMd.askVolume 0 (msgdata.av 0).toInt32
        bidPrice := Function.update fbMd.bidPrice 0 (convertPriceIfVolumeZero (msgdata.bp 0) (msgdata.bv 0))
        bidVolume := Function.update fbMd.bidVolume 0 (msgdata.bv 0).toInt32 }
    else if slot.msgType = l2Md then
      some { fbMd with
        maxDepth := 5
        iopv := iopvTagLv2
        askPrice := fun i => convertPriceIfVolumeZero (msgdata.ap i) (msgdata.av i)
        askVolume := fun i => (msgdata.av i).toInt32
        bidPrice := fun i => convertPriceIfVolumeZero (msgdata.bp i) (msgdata.bv i)
        bidVolume := fun i => (msgdata.bv i).toInt32 }
    else none

/-! ## The machine -/

/-- The receiver, and with each record passed to `on_msg` the slot it was made of. -/
structure State where
  receiver : Receiver
  published : List (Queued × MarketData)

inductive Event where
  | message (m : Message)
  | dispatch

/-- One call. There is nothing to dispatch from an empty ring. -/
def step (level2BelongTo : Nat → Nat → Bool) (reset : MarketData) (s : State) : Event → Option State
  | .message m => (handle level2BelongTo s.receiver m).map fun (r, _) => { s with receiver := r }
  | .dispatch =>
    match s.receiver.queue with
    | [] => none
    | q :: queue => some
        { receiver := { s.receiver with queue := queue }
          published := s.published ++ ((dispatchMessage reset s.receiver q.slot).map (q, ·)).toList }

/-- Any items, and nothing in the ring. -/
def machine (level2BelongTo : Nat → Nat → Bool) (reset : MarketData) : Machine State Event where
  init s := s.receiver.queue = [] ∧ s.published = []
  step := step level2BelongTo reset

/-! ## The fields that do not travel through the ring -/

/-- The seven values `DispatchMessage` takes from the entry, as they are published. -/
structure Day where
  open' : Float
  high : Float
  low : Float
  upper : Float
  lower : Float
  preOpenInterest : Float
  preSettlement : Float
  deriving DecidableEq

def dayOfEntry (cache : QuotaInfo) : Day where
  open' := convertPriceIfZero cache.open'
  high := convertPriceIfZero cache.high
  low := convertPriceIfZero cache.low
  upper := convertPriceIfZero cache.upper
  lower := convertPriceIfZero cache.lower
  preOpenInterest := convertPriceIfZero (Float.ofInt cache.lastOpeninterest.toInt)
  preSettlement := convertPriceIfZero cache.lastSettlePrice

/-- A message's own values. -/
def dayOfMessage (msgdata : Lv2Message) : Day := dayOfEntry (fillEntry .zero msgdata)

def dayOfRecord (fbMd : MarketData) : Day where
  open' := fbMd.open'
  high := fbMd.highPrice
  low := fbMd.lowPrice
  upper := fbMd.upperLimitPrice
  lower := fbMd.downLimitPrice
  preOpenInterest := fbMd.preOpenInterest
  preSettlement := fbMd.preSettlement

/-- What the handler of `msgdata` pushes does not depend on the entry it found. -/
def quoteOf (msgdata : Lv2Message) (inst : Bytes) : DataQuote :=
  lv2DataQuote (fillEntry .zero msgdata) msgdata inst

/-- The record is of the message: what came through the ring, and what did not. -/
structure OfMessage (fbMd : MarketData) (msgdata : Lv2Message) : Prop where
  lastPrice : fbMd.lastPrice = convertPriceIfZero msgdata.lastPrice
  volume : fbMd.volume = msgdata.volume
  book : ∃ inst, bidOf fbMd = publishSide (quoteOf msgdata inst).bp (quoteOf msgdata inst).bv ∧
    askOf fbMd = publishSide (quoteOf msgdata inst).ap (quoteOf msgdata inst).av
  day : dayOfRecord fbMd = dayOfMessage msgdata

/-! ## What a call does to a waiting slot -/

def Message.IsLv2 : Message → Prop
  | .lv2 _ _ => True
  | .lv1 _ _ _ => False

instance : DecidablePred Message.IsLv2
  | .lv2 _ _ => .isTrue trivial
  | .lv1 _ _ _ => .isFalse id

/-- The name the handler looks up, if it gets that far. -/
def codeOf (level2BelongTo : Nat → Nat → Bool) : Message → Option Bytes
  | .lv2 databuffer _ =>
    if level2BelongTo (databuffer.u32 30) (databuffer.u16 36) ∧ transU16 databuffer 38 = 684 then
      cstr (Lv2Message.ofMem (databuffer.shift 42)).symbol
    else none
  | .lv1 data _ _ => cstr (MarketDataField.ofMem data).instrumentId

/-- The entry after the call. -/
def entryAfter (cache : QuotaInfo) : Message → QuotaInfo
  | .lv2 databuffer _ => (lv2Entry cache (Lv2Message.ofMem (databuffer.shift 42))).1
  | .lv1 data _ _ => (lv1Entry cache (MarketDataField.ofMem data)).1

/-- The message leaves the seven values as they are published. -/
def KeepsDay (cache : QuotaInfo) : Message → Prop
  | .lv2 databuffer _ => dayOfMessage (Lv2Message.ofMem (databuffer.shift 42)) = dayOfEntry cache
  | .lv1 data _ _ => ¬ FillsOpen cache (MarketDataField.ofMem data)

instance (cache : QuotaInfo) : DecidablePred (KeepsDay cache)
  | .lv2 databuffer _ =>
    inferInstanceAs (Decidable (dayOfMessage (Lv2Message.ofMem (databuffer.shift 42)) = dayOfEntry cache))
  | .lv1 data _ _ => inferInstanceAs (Decidable (¬ FillsOpen cache (MarketDataField.ofMem data)))

/-- A Level-2 slot that will be published with the entry `i` is in the ring. -/
def Awaited (r : Receiver) (i : Nat) : Prop :=
  ∃ q ∈ r.queue, q.source ≠ none ∧ find r.items q.slot.data.inst = some i

instance (r : Receiver) (i : Nat) : Decidable (Awaited r i) :=
  inferInstanceAs (Decidable (∃ q ∈ r.queue, q.source ≠ none ∧ find r.items q.slot.data.inst = some i))

/-- A message that finds an entry a slot waits for keeps its values, and the name a
Level-2 slot is given finds no other entry than the symbol. -/
def Undisturbed (level2BelongTo : Nat → Nat → Bool) (s : State) : Event → Prop
  | .message m => ∀ code i cache, codeOf level2BelongTo m = some code → find s.receiver.items code = some i →
      valueAt s.receiver.items i = some cache →
      (Awaited s.receiver i → KeepsDay cache m) ∧
        (Message.IsLv2 m → ∀ j, find s.receiver.items (code.take (gfexInstLen code)) = some j → j = i)
  | .dispatch => True

instance (level2BelongTo : Nat → Nat → Bool) (s : State) : DecidablePred (Undisturbed level2BelongTo s)
  | .message m =>
    decidable_of_iff (∀ code ∈ codeOf level2BelongTo m, ∀ i ∈ find s.receiver.items code,
        ∀ cache ∈ valueAt s.receiver.items i, (Awaited s.receiver i → KeepsDay cache m) ∧
          (Message.IsLv2 m → ∀ j ∈ find s.receiver.items (code.take (gfexInstLen code)), j = i))
      ⟨fun h code i cache hcode hi hc => h code hcode i hi cache hc,
        fun h code hcode i hi cache hc => h code i cache hcode hi hc⟩
  | .dispatch => .isTrue trivial

/-! ## One message -/

/-- A Level-2 message leaves its own values, whatever the filter says. -/
theorem lv2Entry_fst (cache : QuotaInfo) (msgdata : Lv2Message) :
    ∃ q, (lv2Entry cache msgdata).1 = { fillEntry cache msgdata with toQuotaInfo := q } := by
  unfold lv2Entry
  dsimp only
  repeat' split
  all_goals exact ⟨_, rfl⟩

theorem lv1Entry_fst (cache : QuotaInfo) (msgdata : MarketDataField) :
    ∃ q, (lv1Entry cache msgdata).1 = { (if FillsOpen cache msgdata then
      { cache with open' := msgdata.latestPrice } else cache) with toQuotaInfo := q } := by
  unfold lv1Entry
  dsimp only
  repeat' split
  all_goals exact ⟨_, rfl⟩

theorem dayOfEntry_lv2 (cache : QuotaInfo) (msgdata : Lv2Message) :
    dayOfEntry (lv2Entry cache msgdata).1 = dayOfMessage msgdata := by
  obtain ⟨q, hq⟩ := lv2Entry_fst cache msgdata
  rw [hq]
  rfl

/-- What is pushed is a function of the message and the name. -/
theorem lv2DataQuote_eq (cache : QuotaInfo) (msgdata : Lv2Message) (inst : Bytes) :
    lv2DataQuote (lv2Entry cache msgdata).1 msgdata inst = quoteOf msgdata inst := by
  obtain ⟨q, hq⟩ := lv2Entry_fst cache msgdata
  rw [hq]
  rfl

theorem quoteOf_fields (msgdata : Lv2Message) (inst : Bytes) : (quoteOf msgdata inst).inst = inst ∧
    (quoteOf msgdata inst).lastPrice = msgdata.lastPrice ∧ (quoteOf msgdata inst).volume = msgdata.volume := by
  unfold quoteOf lv2DataQuote
  dsimp only
  repeat' split
  all_goals exact ⟨rfl, rfl, rfl⟩

/-- An opening price that is filled in is published as another one. -/
theorem convert_fillsOpen {cache : QuotaInfo} {msgdata : MarketDataField} (h : FillsOpen cache msgdata) :
    convertPriceIfZero msgdata.latestPrice ≠ convertPriceIfZero cache.open' := by
  obtain ⟨hopen, hmax, hpos⟩ := h
  have hlatest : convertPriceIfZero msgdata.latestPrice = msgdata.latestPrice :=
    if_neg (Binary64.not_beq_of_gt hpos)
  rw [hlatest]
  intro heq
  unfold convertPriceIfZero at heq
  split at heq
  · exact hmax heq
  · exact hopen (heq ▸ hpos)

/-- The seven values are as before exactly if the message keeps them. -/
theorem dayOfEntry_after (cache : QuotaInfo) (m : Message) :
    dayOfEntry (entryAfter cache m) = dayOfEntry cache ↔ KeepsDay cache m := by
  cases m with
  | lv2 databuffer localTimeNs => rw [entryAfter, dayOfEntry_lv2, KeepsDay]
  | lv1 data localTimeNs uninit =>
    obtain ⟨q, hq⟩ := lv1Entry_fst cache (MarketDataField.ofMem data)
    rw [entryAfter, hq, KeepsDay]
    by_cases h : FillsOpen cache (MarketDataField.ofMem data)
    · rw [if_pos h]
      exact ⟨fun he => absurd (congrArg Day.open' he) (convert_fillsOpen h), fun hn => absurd h hn⟩
    · rw [if_neg h]
      exact ⟨fun _ => h, fun _ => rfl⟩

/-- The slot a call pushes. -/
def slotOf (code : Bytes) (cache : QuotaInfo) : Message → Queued
  | .lv2 databuffer localTimeNs =>
    let msgdata := Lv2Message.ofMem (databuffer.shift 42)
    let quota := lv2DataQuote (lv2Entry cache msgdata).1 msgdata (code.take (gfexInstLen code))
    ⟨⟨quota.extime, localTimeNs, l2Md, quota⟩, some msgdata⟩
  | .lv1 data localTimeNs uninit =>
    let quota := lv1DataQuote uninit (MarketDataField.ofMem data) (code.take (gfexInstLen code))
    ⟨⟨quota.extime, localTimeNs, l1Md, quota⟩, none⟩

/-- A call finds no entry, or it changes the one it finds and pushes one slot at most. -/
theorem handle_spec {level2BelongTo : Nat → Nat → Bool} {r r' : Receiver} {m : Message} {v : Option Verdict}
    (h : handle level2BelongTo r m = some (r', v)) :
    (r' = r ∧ (codeOf level2BelongTo m).bind (find r.items) = none) ∨
      ∃ code i cache, codeOf level2BelongTo m = some code ∧ find r.items code = some i ∧
        valueAt r.items i = some cache ∧ r'.items = modify r.items i (fun _ => entryAfter cache m) ∧
        (r'.queue = r.queue ∨ r'.queue = r.queue ++ [slotOf code cache m]) := by
  cases m with
  | lv2 databuffer localTimeNs =>
    simp only [handle, onDataLv2] at h
    split at h
    · rename_i hto
      obtain ⟨symbol, hs, h⟩ := Option.bind_eq_some_iff.mp h
      have hcode : codeOf level2BelongTo (.lv2 databuffer localTimeNs) = some symbol := by
        rw [codeOf, if_pos hto, hs]
      rcases onMessage_spec h with ⟨hr, -, hnone⟩ | ⟨i, cache, hi, hc, -, hitems, hqueue⟩
      · exact .inl ⟨hr, by rw [hcode, Option.bind_some, hnone]⟩
      · exact .inr ⟨symbol, i, cache, hcode, hi, hc, hitems, hqueue.imp_right And.right⟩
    · rename_i hto
      cases h
      refine .inl ⟨rfl, ?_⟩
      rw [codeOf, if_neg hto, Option.bind_none]
  | lv1 data localTimeNs uninit =>
    obtain ⟨code, hs, h⟩ := Option.bind_eq_some_iff.mp h
    rcases onMessage_spec h with ⟨hr, -, hnone⟩ | ⟨i, cache, hi, hc, -, hitems, hqueue⟩
    · refine .inl ⟨hr, ?_⟩
      rw [codeOf, hs, Option.bind_some, hnone]
    · exact .inr ⟨code, i, cache, hs, hi, hc, hitems, hqueue.imp_right And.right⟩

/-! ## The slots in the ring -/

/-- The slot is of the message it remembers. -/
structure Made (q : Queued) : Prop where
  lv1 : q.source = none → q.slot.msgType = l1Md
  lv2 : ∀ msgdata, q.source = some msgdata → q.slot.msgType = l2Md ∧ ∃ inst, q.slot.data = quoteOf msgdata inst

/-- Dispatched now, a Level-2 slot would be published with its own values. -/
def Fresh (r : Receiver) (q : Queued) : Prop :=
  ∀ msgdata cache, q.source = some msgdata → entryOf r q.slot.data.inst = some cache →
    dayOfEntry cache = dayOfMessage msgdata

theorem made_slotOf (code : Bytes) (cache : QuotaInfo) (m : Message) : Made (slotOf code cache m) := by
  cases m with
  | lv2 databuffer localTimeNs =>
    refine ⟨fun h => ?_, fun msgdata h => ?_⟩
    · cases h
    · rw [← Option.some.inj h]
      exact ⟨rfl, _, lv2DataQuote_eq cache _ _⟩
  | lv1 data localTimeNs uninit =>
    refine ⟨fun _ => rfl, fun msgdata h => ?_⟩
    cases h

section Entry

variable {r r' : Receiver} {i : Nat} {cache cache' : QuotaInfo}

/-- The entry a name has after one was written. -/
theorem entryOf_self {code : Bytes} (hitems : r'.items = modify r.items i fun _ => cache')
    (hc : valueAt r.items i = some cache) (hi : find r.items code = some i) : entryOf r' code = some cache' := by
  rw [entryOf, hitems, find_modify, hi, Option.bind_some, valueAt_modify_self, hc, Option.map_some]

theorem entryOf_ne {code : Bytes} (hitems : r'.items = modify r.items i fun _ => cache')
    (hi : find r.items code ≠ some i) : entryOf r' code = entryOf r code := by
  rw [entryOf, entryOf, hitems, find_modify]
  cases hf : find r.items code with
  | none => rfl
  | some j => exact valueAt_modify_ne _ fun hij => hi (hij ▸ hf)

theorem fresh_ne {q : Queued} (hitems : r'.items = modify r.items i fun _ => cache')
    (hi : find r.items q.slot.data.inst ≠ some i) (h : Fresh r q) : Fresh r' q := by
  intro msgdata cache hsource hentry
  rw [entryOf_ne hitems hi] at hentry
  exact h msgdata cache hsource hentry

/-- A slot that was fresh still is if and only if the seven values of its entry are. -/
theorem fresh_self {q : Queued} (hitems : r'.items = modify r.items i fun _ => cache')
    (hc : valueAt r.items i = some cache) (hi : find r.items q.slot.data.inst = some i)
    (hq : q.source ≠ none) (h : Fresh r q) : Fresh r' q ↔ dayOfEntry cache' = dayOfEntry cache := by
  obtain ⟨msgdata, hsource⟩ := Option.ne_none_iff_exists'.mp hq
  have hentry : entryOf r q.slot.data.inst = some cache := by rw [entryOf, hi, Option.bind_some, hc]
  have hentry' := entryOf_self hitems hc hi
  have hold := h msgdata cache hsource hentry
  constructor
  · intro h'
    rw [h' msgdata cache' hsource hentry', hold]
  · intro hday msgdata' cache'' hsource' hentry''
    rw [hsource, Option.some.injEq] at hsource'
    rw [hentry', Option.some.injEq] at hentry''
    rw [← hentry'', ← hsource', hday, hold]

end Entry

/-- The slot a call pushes is fresh, unless its name finds another entry. -/
theorem fresh_slotOf {r r' : Receiver} {code : Bytes} {i : Nat} {cache : QuotaInfo} {m : Message}
    (hitems : r'.items = modify r.items i fun _ => entryAfter cache m) (hc : valueAt r.items i = some cache)
    (hcut : Message.IsLv2 m → ∀ j, find r.items (code.take (gfexInstLen code)) = some j → j = i) :
    Fresh r' (slotOf code cache m) := by
  intro msgdata cache' hsome hentry
  cases m with
  | lv1 data localTimeNs uninit => cases hsome
  | lv2 databuffer localTimeNs =>
    rw [← Option.some.inj hsome]
    have hname : (slotOf code cache (.lv2 databuffer localTimeNs)).slot.data.inst =
        code.take (gfexInstLen code) := by
      simp only [slotOf, lv2DataQuote_eq]
      exact (quoteOf_fields _ _).1
    rw [hname] at hentry
    obtain ⟨j, hj, -⟩ := Option.bind_eq_some_iff.mp hentry
    rw [hitems, find_modify] at hj
    rw [hcut trivial j hj] at hj
    rw [entryOf_self hitems hc hj, Option.some.injEq] at hentry
    rw [← hentry]
    exact dayOfEntry_lv2 cache _

/-- An undisturbed call keeps the slots in the ring fresh, and the one it pushes is. -/
theorem fresh_step {level2BelongTo : Nat → Nat → Bool} {s : State} {m : Message} {r' : Receiver}
    {v : Option Verdict} (hok : Undisturbed level2BelongTo s (.message m))
    (h : handle level2BelongTo s.receiver m = some (r', v))
    (hfresh : ∀ q ∈ s.receiver.queue, Fresh s.receiver q) : ∀ q ∈ r'.queue, Fresh r' q := by
  rcases handle_spec h with ⟨rfl, -⟩ | ⟨code, i, cache, hcode, hi, hc, hitems, hqueue⟩
  · exact hfresh
  · obtain ⟨hkeeps, hcut⟩ := hok code i cache hcode hi hc
    have hold : ∀ q ∈ s.receiver.queue, Fresh r' q := by
      intro q hq
      by_cases hqi : find s.receiver.items q.slot.data.inst = some i
      · by_cases hsource : q.source = none
        · intro msgdata cache hsome
          rw [hsource] at hsome
          cases hsome
        · rw [fresh_self hitems hc hqi hsource (hfresh q hq), dayOfEntry_after]
          exact hkeeps ⟨q, hq, hsource, hqi⟩
      · exact fresh_ne hitems hqi (hfresh q hq)
    rcases hqueue with hqueue | hqueue
    · rw [hqueue]
      exact hold
    · rw [hqueue]
      intro q hq
      rcases List.mem_append.mp hq with hq | hq
      · exact hold q hq
      · rw [List.mem_singleton.mp hq]
        exact fresh_slotOf hitems hc hcut

/-! ## What is published -/

theorem ne_l1Md {msgType : UInt32} (hl2 : msgType = l2Md) : msgType ≠ l1Md := by
  rw [hl2]
  decide

theorem dispatchMessage_isSome {reset : MarketData} {r : Receiver} {slot : Slot} {cache : QuotaInfo}
    (hl2 : slot.msgType = l2Md) (hentry : entryOf r slot.data.inst = some cache) :
    ∃ fbMd, dispatchMessage reset r slot = some fbMd := by
  rw [dispatchMessage]
  dsimp only
  rw [hentry, Option.bind_some, if_neg (ne_l1Md hl2), if_pos hl2]
  exact ⟨_, rfl⟩

/-- A Level-2 record is the slot with the seven values of the entry. -/
theorem dispatchMessage_lv2 {reset fbMd : MarketData} {r : Receiver} {slot : Slot} (hl2 : slot.msgType = l2Md)
    (h : dispatchMessage reset r slot = some fbMd) : ∃ cache, entryOf r slot.data.inst = some cache ∧
      dayOfRecord fbMd = dayOfEntry cache ∧ fbMd.lastPrice = convertPriceIfZero slot.data.lastPrice ∧
      fbMd.volume = slot.data.volume ∧ bidOf fbMd = publishSide slot.data.bp slot.data.bv ∧
      askOf fbMd = publishSide slot.data.ap slot.data.av := by
  obtain ⟨cache, hentry, h⟩ := Option.bind_eq_some_iff.mp h
  rw [if_neg (ne_l1Md hl2), if_pos hl2, Option.some.injEq] at h
  rw [← h]
  exact ⟨cache, hentry, rfl, rfl, rfl, rfl, rfl⟩

/-- It is a record of the slot's message exactly if the slot is fresh. -/
theorem dispatchMessage_ofMessage {reset fbMd : MarketData} {r : Receiver} {q : Queued} {msgdata : Lv2Message}
    (hmade : Made q) (hsource : q.source = some msgdata) (h : dispatchMessage reset r q.slot = some fbMd) :
    OfMessage fbMd msgdata ↔ Fresh r q := by
  obtain ⟨hl2, inst, hdata⟩ := hmade.lv2 msgdata hsource
  obtain ⟨cache, hentry, hday, hprice, hvolume, hbid, hask⟩ := dispatchMessage_lv2 hl2 h
  constructor
  · intro hof msgdata' cache' hsource' hentry'
    rw [hsource, Option.some.injEq] at hsource'
    rw [hentry, Option.some.injEq] at hentry'
    rw [← hentry', ← hsource', ← hday, hof.day]
  · intro hfresh
    rw [hdata] at hprice hvolume hbid hask
    exact {
      lastPrice := hprice.trans (congrArg convertPriceIfZero (quoteOf_fields msgdata inst).2.1)
      volume := hvolume.trans (quoteOf_fields msgdata inst).2.2
      book := ⟨inst, hbid, hask⟩
      day := hday.trans (hfresh msgdata cache hsource hentry) }

/-- Every published Level-2 record is of the message its slot was made from. -/
def Consistent (s : State) : Prop :=
  ∀ p ∈ s.published, p.1.slot.msgType = l2Md → ∃ msgdata, p.1.source = some msgdata ∧ OfMessage p.2 msgdata

structure Inv (s : State) : Prop where
  made : ∀ q ∈ s.receiver.queue, Made q
  fresh : ∀ q ∈ s.receiver.queue, Fresh s.receiver q
  consistent : Consistent s

section Steps

variable {level2BelongTo : Nat → Nat → Bool} {reset : MarketData} {s s' : State}

theorem made_step {r' : Receiver} {m : Message} {v : Option Verdict}
    (h : handle level2BelongTo s.receiver m = some (r', v)) (hmade : ∀ q ∈ s.receiver.queue, Made q) :
    ∀ q ∈ r'.queue, Made q := by
  rcases handle_spec h with ⟨rfl, -⟩ | ⟨code, i, cache, -, -, -, -, hqueue | hqueue⟩
  · exact hmade
  · rw [hqueue]
    exact hmade
  · rw [hqueue]
    intro q hq
    rcases List.mem_append.mp hq with hq | hq
    · exact hmade q hq
    · rw [List.mem_singleton.mp hq]
      exact made_slotOf code cache m

theorem inv_message {m : Message} (hinv : Inv s) (hok : Undisturbed level2BelongTo s (.message m))
    (h : step level2BelongTo reset s (.message m) = some s') : Inv s' := by
  obtain ⟨⟨r', v⟩, hr, rfl⟩ := Option.map_eq_some_iff.mp h
  exact ⟨made_step hr hinv.made, fresh_step hok hr hinv.fresh, hinv.consistent⟩

/-- The slot at the head is published as it is. -/
theorem step_dispatch {q : Queued} {queue : List Queued} (hq : s.receiver.queue = q :: queue) :
    step level2BelongTo reset s .dispatch = some
      { receiver := { s.receiver with queue := queue }
        published := s.published ++ ((dispatchMessage reset s.receiver q.slot).map (q, ·)).toList } := by
  rw [step, hq]

theorem inv_dispatch (hinv : Inv s) (h : step level2BelongTo reset s .dispatch = some s') : Inv s' := by
  cases hqueue : s.receiver.queue with
  | nil =>
    rw [step, hqueue] at h
    cases h
  | cons q queue =>
    rw [step_dispatch hqueue, Option.some.injEq] at h
    rw [← h]
    have hmem : ∀ q' ∈ queue, q' ∈ s.receiver.queue := fun q' hq' => hqueue ▸ List.mem_cons_of_mem q hq'
    have hhead : q ∈ s.receiver.queue := hqueue ▸ List.mem_cons_self
    refine ⟨fun q' hq' => hinv.made q' (hmem q' hq'), fun q' hq' => hinv.fresh q' (hmem q' hq'), ?_⟩
    intro p hp hl2
    rcases List.mem_append.mp hp with hp | hp
    · exact hinv.consistent p hp hl2
    · obtain ⟨fbMd, hd, rfl⟩ := Option.map_eq_some_iff.mp (Option.mem_toList.mp hp)
      have hmade := hinv.made q hhead
      cases hsource : q.source with
      | none => exact absurd (hmade.lv1 hsource) (ne_l1Md hl2)
      | some msgdata =>
        exact ⟨msgdata, rfl, (dispatchMessage_ofMessage hmade hsource hd).mpr (hinv.fresh q hhead)⟩

end Steps

/-- **The condition is enough.** In every run whose calls leave the waiting slots alone, every
published Level-2 record is of one message. -/
theorem snapshots_consistent {level2BelongTo : Nat → Nat → Bool} {reset : MarketData} {s t : State}
    {es : List Event} (hs : (machine level2BelongTo reset).init s)
    (hok : (machine level2BelongTo reset).Along (Undisturbed level2BelongTo) s es)
    (hr : (machine level2BelongTo reset).run s es = some t) : Consistent t := by
  have hinit : Inv s := by
    refine ⟨?_, ?_, ?_⟩
    · rw [hs.1]
      exact fun q hq => nomatch hq
    · rw [hs.1]
      exact fun q hq => nomatch hq
    · rw [Consistent, hs.2]
      exact fun p hp => nomatch hp
  have hstep : ∀ s e s', Inv s → Undisturbed level2BelongTo s e →
      (machine level2BelongTo reset).step s e = some s' → Inv s' := by
    intro s e s' hinv hok h
    cases e with
    | message m => exact inv_message hinv hok (show step level2BelongTo reset s (.message m) = some s' from h)
    | dispatch => exact inv_dispatch hinv (show step level2BelongTo reset s .dispatch = some s' from h)
  exact (Machine.run_along hstep hinit hok hr).consistent

/-- A Level-2 frame of `lc2601` at 09:00:00, with the limits 10.0 and 20.0, five bids at
15.0, five asks at 16.0 and a highest price from 8.0 on. -/
def bookFrame (highPrice : UInt8) : Mem := fun i =>
  if i < 42 then if i = 38 then 2 else if i = 39 then 0xac else 0
  else if i < 65 then (List.replicate 17 0 ++ lc2601).getD (i - 42) 0
  else if i = 144 then highPrice
  else if i = 145 then 0x40
  else Suppression.sampleBook 1 (i - 42)

/-- An entry of `lc2601`, nothing in the ring and nothing published. -/
def State.start : State := ⟨oneInstrument, []⟩

/-- The type of each slot published, the highest price of its record and that of its message. -/
def State.highs (s : State) : List (UInt32 × Float × Option Float) :=
  s.published.map fun p => (p.1.slot.msgType, p.2.highPrice, p.1.source.map fun msgdata => msgdata.highPrice)

/-- Two messages of one day wait together; the third one, with another highest price, comes when
both have been dispatched. -/
def threeBooks : List Event :=
  [.message (.lv2 (bookFrame 0x28) 0), .message (.lv2 (bookFrame 0x28) 1), .dispatch, .dispatch,
    .message (.lv2 (bookFrame 0x2a) 2), .dispatch]

/-- Each of their records has the highest price of its message. -/
theorem snapshots_consistent_three : ∃ t, (machine (fun _ _ => true) .zero).run .start threeBooks = some t ∧
    t.highs = [(l2Md, 12, some 12), (l2Md, 12, some 12), (l2Md, 13, some 13)] ∧ Consistent t := by
  have hrun : ((machine (fun _ _ => true) .zero).run .start threeBooks).map State.highs =
      some [(l2Md, 12, some 12), (l2Md, 12, some 12), (l2Md, 13, some 13)] := by decide +kernel
  obtain ⟨t, ht, hhighs⟩ := Option.map_eq_some_iff.mp hrun
  have hok : (machine (fun _ _ => true) .zero).Along (Undisturbed fun _ _ => true) .start threeBooks := by
    decide +kernel
  exact ⟨t, ht, hhighs, snapshots_consistent ⟨rfl, rfl⟩ hok ht⟩

/-! ## A disturbed slot -/

/-- Dispatching all the ring holds publishes each slot with the entries as they are. -/
theorem drain {level2BelongTo : Nat → Nat → Bool} {reset : MarketData} {s : State} {queue : List Queued}
    (hqueue : s.receiver.queue = queue) :
    ∃ t, (machine level2BelongTo reset).run s (List.replicate queue.length .dispatch) = some t ∧
      (∀ p ∈ s.published, p ∈ t.published) ∧
      ∀ q ∈ queue, ∀ fbMd, dispatchMessage reset s.receiver q.slot = some fbMd → (q, fbMd) ∈ t.published := by
  induction queue generalizing s with
  | nil => exact ⟨s, rfl, fun _ hp => hp, fun q hq => nomatch hq⟩
  | cons q queue ih =>
    obtain ⟨t, hrun, hold, hnew⟩ := @ih
      { receiver := { s.receiver with queue := queue }
        published := s.published ++ ((dispatchMessage reset s.receiver q.slot).map (q, ·)).toList } rfl
    refine ⟨t, Machine.run_cons.mpr ⟨_, @step_dispatch level2BelongTo _ _ _ _ hqueue, hrun⟩, ?_, ?_⟩
    · exact fun p hp => hold p (List.mem_append_left _ hp)
    · intro q' hq' fbMd hd
      cases hq' with
      | head =>
        refine hold _ (List.mem_append_right _ ?_)
        rw [hd]
        exact List.mem_singleton_self _
      | tail _ hq' => exact hnew q' hq' fbMd hd

/-- A message that does not keep the values of an entry a slot waits for: dispatching what
is in the ring then publishes a record that is not of one message. -/
theorem overwritten_published {level2BelongTo : Nat → Nat → Bool} {reset : MarketData} {s s' : State}
    {m : Message} {code : Bytes} {i : Nat} {cache : QuotaInfo} (hinv : Inv s)
    (hs : step level2BelongTo reset s (.message m) = some s') (hcode : codeOf level2BelongTo m = some code)
    (hi : find s.receiver.items code = some i) (hc : valueAt s.receiver.items i = some cache)
    (hawaited : Awaited s.receiver i) (hkeeps : ¬ KeepsDay cache m) :
    ∃ t, (machine level2BelongTo reset).run s' (List.replicate s'.receiver.queue.length .dispatch) = some t ∧
      ¬ Consistent t := by
  obtain ⟨⟨r', v⟩, hr, rfl⟩ := Option.map_eq_some_iff.mp hs
  obtain ⟨q, hq, hsource, hqi⟩ := hawaited
  rcases handle_spec hr with ⟨-, hnone⟩ | ⟨code', i', cache', hcode', hi', hc', hitems, hqueue⟩
  · rw [hcode, Option.bind_some, hi] at hnone
    cases hnone
  · rw [hcode, Option.some.injEq] at hcode'
    subst hcode'
    rw [hi, Option.some.injEq] at hi'
    subst hi'
    rw [hc, Option.some.injEq] at hc'
    subst hc'
    have hstale : ¬ Fresh r' q := by
      rw [fresh_self hitems hc hqi hsource (hinv.fresh q hq), dayOfEntry_after]
      exact hkeeps
    have hq' : q ∈ r'.queue := by
      rcases hqueue with hqueue | hqueue
      · exact hqueue ▸ hq
      · exact hqueue ▸ List.mem_append_left _ hq
    obtain ⟨msgdata, hsource'⟩ := Option.ne_none_iff_exists'.mp hsource
    have hl2 := ((hinv.made q hq).lv2 msgdata hsource').1
    obtain ⟨fbMd, hd⟩ := @dispatchMessage_isSome reset _ _ _ hl2 (entryOf_self hitems hc hqi)
    obtain ⟨t, hrun, -, hnew⟩ := @drain level2BelongTo reset { s with receiver := r' } _ rfl
    refine ⟨t, hrun, fun hcons => ?_⟩
    obtain ⟨msgdata', hm, hof⟩ := hcons _ (hnew q hq' fbMd hd) hl2
    rw [hsource', Option.some.injEq] at hm
    subst hm
    exact hstale ((dispatchMessage_ofMessage (hinv.made q hq) hsource' hd).mp hof)

/-- **Counterexample.** Two messages with the highest prices 12.0 and 13.0 are received before
the first is dispatched: it is published with 13.0. -/
theorem high_of_the_next_message : ∃ t,
    (machine (fun _ _ => true) .zero).init .start ∧
      (machine (fun _ _ => true) .zero).run .start
        [.message (.lv2 (bookFrame 0x28) 0), .message (.lv2 (bookFrame 0x2a) 0), .dispatch] = some t ∧
      t.highs = [(l2Md, 13, some 12)] ∧ ¬ Consistent t := by
  have hrun : ((machine (fun _ _ => true) .zero).run .start
      [.message (.lv2 (bookFrame 0x28) 0), .message (.lv2 (bookFrame 0x2a) 0), .dispatch]).map State.highs =
        some [(l2Md, 13, some 12)] := by
    decide +kernel
  obtain ⟨t, ht, hhighs⟩ := Option.map_eq_some_iff.mp hrun
  refine ⟨t, ⟨rfl, rfl⟩, ht, hhighs, fun hcons => ?_⟩
  obtain ⟨p, hp, heq⟩ := List.map_eq_singleton_iff.mp hhighs
  simp only [Prod.mk.injEq] at heq
  obtain ⟨hl2, hhigh, hsource⟩ := heq
  obtain ⟨msgdata, hm, hof⟩ := hcons p (hp ▸ List.mem_singleton_self p) hl2
  rw [hm, Option.map_some, Option.some.injEq] at hsource
  have hday : p.2.highPrice = convertPriceIfZero msgdata.highPrice := congrArg Day.high hof.day
  rw [hhigh, hsource] at hday
  exact absurd hday (by decide)

end MdInfoSet.L4.ExanicSnapshot
