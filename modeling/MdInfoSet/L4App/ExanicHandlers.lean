import MdInfoSet.Core.Machine
import MdInfoSet.L1Encoding.ExanicMessages
import MdInfoSet.L2Machine.InstMap
import MdInfoSet.L4App.DceFilter
import MdInfoSet.L4App.GfexHandlers
import MdInfoSet.L4App.Publish

/-!
# The handlers of `gfex_md_exanic`

src/gfex_md_exanic/src/exanic_md.cpp: `OnData_lv2` and `OnData_lv1` push what they
accept to a ring buffer of 8192 slots, `DispatchMessage` publishes a slot. All three
share the `QuotaInfo` entry of the instrument: a slot holds the last price, the volume
and the book, while the prices of the day, the limits and the settlement data are read
from the entry when it is dispatched.

The items are not sorted before the first `subscribe_inst`, so they are any list here.
A call that blocks on a full ring, or whose strings leave their fields, is `none`.

* `lv2Entry`, `lv1Entry`: what a call does to the entry, and how it ends.
* `lv2Entry_rejected`, `lv1Entry_rejected`: what a dropped message has written before.
-/
namespace MdInfoSet.L4.ExanicHandlers

open MdInfoSet.L1.Lv2Quote MdInfoSet.L1.ExanicMessages MdInfoSet.L2.InstMap MdInfoSet.L2.RingBuffer
open MdInfoSet.L4.Filter MdInfoSet.L4.GfexHandlers MdInfoSet.L4.Publish

/-- mirrors src/gfex_md_exanic/src/exanic_md.h:571-589
The fields the filter keeps are those of `dz_gfex_md`. -/
structure QuotaInfo extends GfexFilter.QuotaInfo where
  open' : Float
  high : Float
  low : Float
  upper : Float
  lower : Float
  lastOpeninterest : Int32
  openinterest : Int32
  lastSettlePrice : Float
  settlePrice : Float
  deriving DecidableEq

def QuotaInfo.zero : QuotaInfo := ⟨.zero, 0, 0, 0, 0, 0, 0, 0, 0, 0⟩

/-- mirrors src/gfex_md_exanic/src/ringbuffer.h:20-83 -/
structure DataQuote where
  extime : UInt64
  inst : Bytes
  lastPrice : Float
  openinterest : Int32
  volume : Int32
  turnover : Float
  bp : Fin 5 → Float
  ap : Fin 5 → Float
  bv : Fin 5 → UInt32
  av : Fin 5 → UInt32

/-- `DataQuote()` -/
def DataQuote.init : DataQuote :=
  ⟨0, [], float64Nan, 0, 0, float64Nan, fun _ => float64Nan, fun _ => float64Nan, fun _ => 0, fun _ => 0⟩

/-- The fields of a slot that are published (ringbuffer.h:95-103). -/
structure Slot where
  extime : UInt64
  timestamp0 : UInt64
  msgType : UInt32
  data : DataQuote

/-- `RING_BUFFER_SIZE` -/
def ringBufferSize : Nat := 8192

/-- How a call on an entry ends. -/
inductive Verdict where
  /-- After 15:00. -/
  | afterClose
  /-- Neither side has a best price within the limits. -/
  | noPrice
  | timeError
  | volError
  | repeatL1
  /-- Accepted, but neither best volume was decoded. -/
  | noVolume
  | pushed
  deriving DecidableEq

/-- A message that is dropped and not accepted. -/
def Verdict.Rejected (v : Verdict) : Prop := v ≠ .noVolume ∧ v ≠ .pushed

instance (v : Verdict) : Decidable v.Rejected := by unfold Verdict.Rejected; infer_instance

/-- mirrors src/gfex_md_exanic/src/exanic_md.cpp:542-569
The body is that of `dz_gfex_md`. -/
def isValidQuota (cache : QuotaInfo) (extime vol : UInt64) (level : UInt32) (ap1 bp1 : Float)
    (av1 bv1 : UInt32) : ComResult × QuotaInfo :=
  let r := GfexFilter.isValidQuota cache.toQuotaInfo extime vol level ap1 bp1 av1 bv1
  (r.1, { cache with toQuotaInfo := r.2 })

/-- mirrors src/gfex_md_exanic/src/exanic_md.h:518-534
The body is that of dce_nano.cpp:322-338. -/
def timeStrToUtcS (timeStr : Bytes) : UInt64 := DceFilter.timeStrToUtcS fun i => timeStr.getD i 0

/-! ## On an entry -/

/-- The eight fields `OnData_lv2` writes first (cpp:289-296). -/
def fillEntry (cache : QuotaInfo) (msgdata : Lv2Message) : QuotaInfo :=
  { cache with
    high := msgdata.highPrice
    open' := msgdata.openPrice
    low := msgdata.lowPrice
    upper := msgdata.priceCeil
    lower := msgdata.priceFloor
    lastOpeninterest := msgdata.lastOpenInterest
    lastSettlePrice := msgdata.clearPrice
    settlePrice := msgdata.lastClear }

/-- `OnData_lv2` from the entry on (cpp:284-431, 506-510). -/
def lv2Entry (cache : QuotaInfo) (msgdata : Lv2Message) : QuotaInfo × Verdict :=
  let cache := fillEntry cache msgdata
  let extime := timeStrToUtcS msgdata.time
  if extime > 3600 * 15 * 1000 then (cache, .afterClose)
  else if illegal cache.lower cache.upper (msgdata.ask 0).price ∧
      illegal cache.lower cache.upper (msgdata.bid 0).price then (cache, .noPrice)
  else
    let (valid, cache) := isValidQuota cache extime (int32ToU64 msgdata.volume) 5 (msgdata.ask 0).price
      (msgdata.bid 0).price ((decoded msgdata.toLv2ObQuote).av 0) ((decoded msgdata.toLv2ObQuote).bv 0)
    if valid = .timeError then (cache, .timeError)
    else if valid = .volError then (cache, .volError)
    else if NoVolume msgdata.toLv2ObQuote then (cache, .noVolume)
    else (cache, .pushed)

/-- The record `OnData_lv2` pushes (cpp:433-504). -/
def lv2DataQuote (cache : QuotaInfo) (msgdata : Lv2Message) (inst : Bytes) : DataQuote :=
  let upper := cache.upper
  let lower := cache.lower
  let bv := (decoded msgdata.toLv2ObQuote).bv
  let av := (decoded msgdata.toLv2ObQuote).av
  let quota := { DataQuote.init with
    extime := timeStrToUtcS msgdata.time
    inst := inst
    lastPrice := msgdata.lastPrice
    openinterest := msgdata.openInterest
    volume := msgdata.volume
    turnover := msgdata.turnover }
  if allIllegal lower upper msgdata.ask then
    { quota with ap := fun i => illegalPrice lower upper (msgdata.bid i).price, av := bv }
  else if allIllegal lower upper msgdata.bid then
    { quota with bp := fun i => illegalPrice lower upper (msgdata.ask i).price, bv := av }
  else
    { quota with
      bp := fun i => illegalPrice lower upper (msgdata.bid i).price
      ap := fun i => illegalPrice lower upper (msgdata.ask i).price
      bv := bv
      av := av }

/-- The entry has no opening price, and the message a price to take for it (cpp:598). -/
def FillsOpen (cache : QuotaInfo) (msgdata : MarketDataField) : Prop :=
  ¬ cache.open' > 0 ∧ msgdata.latestPrice ≠ dblMax ∧ msgdata.latestPrice > 0

instance (cache : QuotaInfo) (msgdata : MarketDataField) : Decidable (FillsOpen cache msgdata) := by
  unfold FillsOpen; infer_instance

/-- `updateTime`, `HHMMSSmmm` as a number, in milliseconds (cpp:603-607). -/
def MarketDataField.extime (msgdata : MarketDataField) : UInt64 :=
  let updateTime := msgdata.updateTime.toInt
  let hh := UInt64.ofInt (updateTime.tdiv 10000000)
  let mm := UInt64.ofInt ((updateTime.tdiv 100000).tmod 100)
  let ss := UInt64.ofInt ((updateTime.tdiv 1000).tmod 100)
  (hh * 3600 + mm * 60 + ss) * 1000 + UInt64.ofInt (updateTime.tmod 1000)

/-- `OnData_lv1` from the entry on (cpp:598-628). -/
def lv1Entry (cache : QuotaInfo) (msgdata : MarketDataField) : QuotaInfo × Verdict :=
  let cache := if FillsOpen cache msgdata then { cache with open' := msgdata.latestPrice } else cache
  let (valid, cache) := isValidQuota cache (MarketDataField.extime msgdata) (int32ToU64 msgdata.matchAmount) 1
    msgdata.sellPrice1 msgdata.buyPrice1 msgdata.sellAmount1.toUInt32 msgdata.buyAmount1.toUInt32
  match valid with
  | .timeError => (cache, .timeError)
  | .volError => (cache, .volError)
  | .repeatL1 => (cache, .repeatL1)
  | .ok | .repeatL2 => (cache, .pushed)

/-- The record `OnData_lv1` pushes (cpp:624-625); the constructor leaves the other
levels of `uninit` as they are. -/
def lv1DataQuote (uninit : DataQuote) (msgdata : MarketDataField) (inst : Bytes) : DataQuote where
  extime := MarketDataField.extime msgdata
  inst := inst
  lastPrice := msgdata.latestPrice
  openinterest := msgdata.positionAmount
  volume := msgdata.matchAmount
  turnover := msgdata.macthMoney
  bp := Function.update uninit.bp 0 msgdata.buyPrice1
  ap := Function.update uninit.ap 0 msgdata.sellPrice1
  bv := Function.update uninit.bv 0 msgdata.buyAmount1.toUInt32
  av := Function.update uninit.av 0 msgdata.sellAmount1.toUInt32

/-! ## On the receiver -/

/-- A slot of the ring. `source` is the Level-2 message the slot was made from; the code
does not keep it. -/
structure Queued where
  slot : Slot
  source : Option Lv2Message

structure Receiver where
  items : List (Nat × QuotaInfo)
  queue : List Queued

/-- `sizeof(DataQuote::inst)` -/
def instSize : Nat := 20

/-- What both handlers do with a message of the instrument `code`: `entry` is the work on
its entry, `slot` what is pushed. Returns how the call ended, if there is an entry. -/
def onMessage (r : Receiver) (code : Bytes) (entry : QuotaInfo → QuotaInfo × Verdict)
    (slot : QuotaInfo → Queued) : Option (Receiver × Option Verdict) :=
  match find r.items code with
  | none => some (r, none)
  | some i => (valueAt r.items i).bind fun cache =>
    let (cache, verdict) := entry cache
    let r := { r with items := modify r.items i fun _ => cache }
    if verdict.Rejected then some (r, some verdict)
    else if instSize ≤ gfexInstLen code then none
    else if verdict = .noVolume then some (r, some verdict)
    else if ringBufferSize ≤ r.queue.length then none
    else some ({ r with queue := r.queue ++ [slot cache] }, some verdict)

/-- `TransU16(udp_ptr->dataLen)` -/
def transU16 (d : Mem) (off : Nat) : Nat := 2 ^ 8 * (d off).toNat + (d (off + 1)).toNat

/-- mirrors src/gfex_md_exanic/src/exanic_md.cpp:251-535
`level2BelongTo` is the test of the addresses, `localTimeNs` the clock at the beginning. -/
def onDataLv2 (level2BelongTo : Nat → Nat → Bool) (r : Receiver) (databuffer : Mem)
    (localTimeNs : UInt64) : Option (Receiver × Option Verdict) :=
  if level2BelongTo (databuffer.u32 30) (databuffer.u16 36) ∧ transU16 databuffer 38 = 684 then
    let msgdata := Lv2Message.ofMem (databuffer.shift 42)
    (cstr msgdata.symbol).bind fun symbol =>
      onMessage r symbol (lv2Entry · msgdata) fun cache =>
        let quota := lv2DataQuote cache msgdata (symbol.take (gfexInstLen symbol))
        ⟨⟨quota.extime, localTimeNs, l2Md, quota⟩, some msgdata⟩
  else some (r, none)

/-- mirrors src/gfex_md_exanic/src/exanic_md.cpp:586-630 -/
def onDataLv1 (r : Receiver) (data : Mem) (localTimeNs : UInt64) (uninit : DataQuote) :
    Option (Receiver × Option Verdict) :=
  let msgdata := MarketDataField.ofMem data
  (cstr msgdata.instrumentId).bind fun code =>
    onMessage r code (lv1Entry · msgdata) fun _ =>
      let quota := lv1DataQuote uninit msgdata (code.take (gfexInstLen code))
      ⟨⟨quota.extime, localTimeNs, l1Md, quota⟩, none⟩

/-! ## What a call can do -/

section Filter

variable {cache : QuotaInfo} {extime vol : UInt64} {level : UInt32} {ap1 bp1 : Float} {av1 bv1 : UInt32}

/-- The filter leaves the entry of a call it rejects. -/
theorem isValidQuota_rejected (h : (isValidQuota cache extime vol level ap1 bp1 av1 bv1).1 ≠ .ok) :
    (isValidQuota cache extime vol level ap1 bp1 av1 bv1).2 = cache := by
  have hq := GfexFilter.isValidQuota_rejected h
  unfold isValidQuota
  dsimp only
  rw [hq]

end Filter

/-- A rejected Level-2 message has written its eight fields. -/
theorem lv2Entry_rejected {cache : QuotaInfo} {msgdata : Lv2Message} (h : (lv2Entry cache msgdata).2.Rejected) :
    (lv2Entry cache msgdata).1 = fillEntry cache msgdata := by
  unfold lv2Entry at h ⊢
  dsimp only at h ⊢
  split
  · rfl
  · split
    · rfl
    · rename_i h1 h2
      rw [if_neg h1, if_neg h2] at h
      split
      · rename_i hv
        exact isValidQuota_rejected (by rw [hv]; decide)
      · split
        · rename_i hv
          exact isValidQuota_rejected (by rw [hv]; decide)
        · rename_i h3 h4
          rw [if_neg h3, if_neg h4] at h
          split at h
          · exact absurd rfl h.1
          · exact absurd rfl h.2

/-- A rejected Level-1 message has filled in the opening price, if there was none. -/
theorem lv1Entry_rejected {cache : QuotaInfo} {msgdata : MarketDataField}
    (h : (lv1Entry cache msgdata).2.Rejected) :
    (lv1Entry cache msgdata).1 =
      if FillsOpen cache msgdata then { cache with open' := msgdata.latestPrice } else cache := by
  unfold lv1Entry at h ⊢
  dsimp only at h ⊢
  split
  · rename_i hv
    exact isValidQuota_rejected (by rw [hv]; decide)
  · rename_i hv
    exact isValidQuota_rejected (by rw [hv]; decide)
  · rename_i hv
    exact isValidQuota_rejected (by rw [hv]; decide)
  · rename_i hv
    simp only [hv] at h
    exact absurd rfl h.2
  · rename_i hv
    simp only [hv] at h
    exact absurd rfl h.2

/-- A call finds no entry, or it changes the one it finds and pushes one slot at most. -/
theorem onMessage_spec {r r' : Receiver} {code : Bytes} {entry : QuotaInfo → QuotaInfo × Verdict}
    {slot : QuotaInfo → Queued} {verdict : Option Verdict}
    (h : onMessage r code entry slot = some (r', verdict)) :
    (r' = r ∧ verdict = none ∧ find r.items code = none) ∨
      ∃ i cache, find r.items code = some i ∧ valueAt r.items i = some cache ∧
        verdict = some (entry cache).2 ∧ r'.items = modify r.items i (fun _ => (entry cache).1) ∧
        (r'.queue = r.queue ∨
          ¬ (entry cache).2.Rejected ∧ r'.queue = r.queue ++ [slot (entry cache).1]) := by
  unfold onMessage at h
  cases hf : find r.items code with
  | none =>
    rw [hf] at h
    cases h
    exact .inl ⟨rfl, rfl, rfl⟩
  | some i =>
    rw [hf] at h
    obtain ⟨cache, hc, he⟩ := Option.bind_eq_some_iff.mp h
    refine .inr ⟨i, cache, rfl, hc, ?_⟩
    dsimp only at he
    split at he
    · cases he
      exact ⟨rfl, rfl, .inl rfl⟩
    · rename_i hrej
      split at he
      · cases he
      · split at he
        · cases he
          exact ⟨rfl, rfl, .inl rfl⟩
        · split at he
          · cases he
          · cases he
            exact ⟨rfl, rfl, .inr ⟨hrej, rfl⟩⟩

/-- A rejected call, where there is an entry. -/
theorem onMessage_rejected {r : Receiver} {code : Bytes} {entry : QuotaInfo → QuotaInfo × Verdict}
    {slot : QuotaInfo → Queued} {i : Nat} {cache : QuotaInfo} (hi : find r.items code = some i)
    (hc : valueAt r.items i = some cache) (h : (entry cache).2.Rejected) :
    onMessage r code entry slot =
      some ({ r with items := modify r.items i fun _ => (entry cache).1 }, some (entry cache).2) := by
  rw [onMessage, hi]
  dsimp only
  rw [hc, Option.bind_some]
  exact if_pos h

/-! ## What a dropped message leaves -/

inductive Message where
  | lv2 (databuffer : Mem) (localTimeNs : UInt64)
  | lv1 (data : Mem) (localTimeNs : UInt64) (uninit : DataQuote)

/-- One call of the handler of the message. -/
def handle (level2BelongTo : Nat → Nat → Bool) (r : Receiver) : Message → Option (Receiver × Option Verdict)
  | .lv2 databuffer localTimeNs => onDataLv2 level2BelongTo r databuffer localTimeNs
  | .lv1 data localTimeNs uninit => onDataLv1 r data localTimeNs uninit

/-- The entry of an instrument. -/
def entryOf (r : Receiver) (code : Bytes) : Option QuotaInfo := (find r.items code).bind (valueAt r.items)

/-- The entry holds the prices of the day, the limits and the settlement data of the
message already. -/
structure HoldsDay (cache : QuotaInfo) (msgdata : Lv2Message) : Prop where
  high : cache.high = msgdata.highPrice
  open' : cache.open' = msgdata.openPrice
  low : cache.low = msgdata.lowPrice
  upper : cache.upper = msgdata.priceCeil
  lower : cache.lower = msgdata.priceFloor
  lastOpeninterest : cache.lastOpeninterest = msgdata.lastOpenInterest
  lastSettlePrice : cache.lastSettlePrice = msgdata.clearPrice
  settlePrice : cache.settlePrice = msgdata.lastClear

/-- The message finds nothing to write to its entry before the filter is asked. -/
def Harmless (r : Receiver) : Message → Prop
  | .lv2 databuffer _ =>
    let msgdata := Lv2Message.ofMem (databuffer.shift 42)
    ∀ cache, (cstr msgdata.symbol).bind (entryOf r) = some cache → HoldsDay cache msgdata
  | .lv1 data _ _ =>
    let msgdata := MarketDataField.ofMem data
    ∀ cache, (cstr msgdata.instrumentId).bind (entryOf r) = some cache → ¬ FillsOpen cache msgdata

theorem fillEntry_eq_iff {cache : QuotaInfo} {msgdata : Lv2Message} :
    fillEntry cache msgdata = cache ↔ HoldsDay cache msgdata := by
  constructor
  · intro h
    rw [← h]
    exact ⟨rfl, rfl, rfl, rfl, rfl, rfl, rfl, rfl⟩
  · intro ⟨h1, h2, h3, h4, h5, h6, h7, h8⟩
    unfold fillEntry
    rw [← h1, ← h2, ← h3, ← h4, ← h5, ← h6, ← h7, ← h8]

/-- A price above 0 is not one that is not. -/
theorem fillOpen_eq_iff {cache : QuotaInfo} {msgdata : MarketDataField} :
    (if FillsOpen cache msgdata then { cache with open' := msgdata.latestPrice } else cache) = cache ↔
      ¬ FillsOpen cache msgdata := by
  constructor
  · intro h hfill
    rw [if_pos hfill] at h
    have hopen : msgdata.latestPrice = cache.open' := congrArg QuotaInfo.open' h
    exact hfill.1 (hopen ▸ hfill.2.2)
  · exact fun h => if_neg h

/-- A rejected call changes the items exactly if the work before the filter changes the
entry. -/
theorem onMessage_items_iff {r r' : Receiver} {code : Bytes} {entry : QuotaInfo → QuotaInfo × Verdict}
    {slot : QuotaInfo → Queued} {v : Verdict} {ok : QuotaInfo → Prop}
    (hentry : ∀ cache, (entry cache).2.Rejected → ((entry cache).1 = cache ↔ ok cache))
    (h : onMessage r code entry slot = some (r', some v)) (hv : v.Rejected) :
    r'.items = r.items ↔ ∀ cache, entryOf r code = some cache → ok cache := by
  rcases onMessage_spec h with ⟨-, hnone, -⟩ | ⟨i, cache, hi, hc, hv', hitems, -⟩
  · cases hnone
  · have hof : entryOf r code = some cache := by rw [entryOf, hi, Option.bind_some, hc]
    rw [Option.some.inj hv'] at hv
    rw [hitems, modify_const_eq_iff hc, hentry cache hv, hof]
    constructor
    · intro hok cache' h'
      exact Option.some.inj h' ▸ hok
    · exact fun hall => hall cache rfl

/-- **Exact condition.** A rejected message leaves every entry as it was if and only if it
finds nothing to write before the filter. -/
theorem no_trace_iff {level2BelongTo : Nat → Nat → Bool} {r r' : Receiver} {m : Message} {v : Verdict}
    (h : handle level2BelongTo r m = some (r', some v)) (hv : v.Rejected) :
    r'.items = r.items ↔ Harmless r m := by
  cases m with
  | lv2 databuffer localTimeNs =>
    simp only [handle, onDataLv2] at h
    split at h
    · obtain ⟨symbol, hs, h⟩ := Option.bind_eq_some_iff.mp h
      have hentry : ∀ cache, (lv2Entry cache (Lv2Message.ofMem (databuffer.shift 42))).2.Rejected →
          ((lv2Entry cache (Lv2Message.ofMem (databuffer.shift 42))).1 = cache ↔
            HoldsDay cache (Lv2Message.ofMem (databuffer.shift 42))) := fun cache hrej => by
        rw [lv2Entry_rejected hrej, fillEntry_eq_iff]
      rw [onMessage_items_iff hentry h hv]
      simp only [Harmless, hs, Option.bind_some]
    · cases h
  | lv1 data localTimeNs uninit =>
    obtain ⟨code, hs, h⟩ := Option.bind_eq_some_iff.mp h
    have hentry : ∀ cache, (lv1Entry cache (MarketDataField.ofMem data)).2.Rejected →
        ((lv1Entry cache (MarketDataField.ofMem data)).1 = cache ↔
          ¬ FillsOpen cache (MarketDataField.ofMem data)) := fun cache hrej => by
      rw [lv1Entry_rejected hrej, fillOpen_eq_iff]
    rw [onMessage_items_iff hentry h hv]
    simp only [Harmless, hs, Option.bind_some]

/-- `lc2601` -/
def lc2601 : Bytes := [0x6c, 0x63, 0x32, 0x36, 0x30, 0x31]

/-- The receiver with this instrument and a zeroed entry. -/
def oneInstrument : Receiver := ⟨[(charsToUint128 lc2601, .zero)], []⟩

/-- A Level-2 frame of the instrument with the given highest price and time, all other
fields 0. -/
def lv2Frame (highPrice time : Bytes) : Mem :=
  Mem.ofBytes (List.replicate 38 0 ++ [2, 0xac] ++ List.replicate 19 0 ++ lc2601 ++ List.replicate 73 0 ++
    highPrice ++ List.replicate 132 0 ++ time)

/-- `15:00:01.000` -/
def late : Bytes := [0x31, 0x35, 0x3a, 0x30, 0x30, 0x3a, 0x30, 0x31, 0x2e, 0x30, 0x30, 0x30]

/-- A late message is rejected, with its eight fields written. -/
theorem late_rejected {cache : QuotaInfo} {databuffer : Mem} (hlen : transU16 databuffer 38 = 684)
    (hs : cstr (Lv2Message.ofMem (databuffer.shift 42)).symbol = some lc2601)
    (hv : (lv2Entry cache (Lv2Message.ofMem (databuffer.shift 42))).2 = .afterClose) :
    handle (fun _ _ => true) ⟨[(charsToUint128 lc2601, cache)], []⟩ (.lv2 databuffer 0) = some
      (⟨modify [(charsToUint128 lc2601, cache)] 0 fun _ =>
        (lv2Entry cache (Lv2Message.ofMem (databuffer.shift 42))).1, []⟩, some .afterClose) := by
  have hi : find [(charsToUint128 lc2601, cache)] lc2601 = some 0 := find_singleton rfl
  have hc : valueAt [(charsToUint128 lc2601, cache)] 0 = some cache := rfl
  rw [handle, onDataLv2, if_pos ⟨rfl, hlen⟩]
  dsimp only
  rw [hs, Option.bind_some, onMessage_rejected hi hc (by rw [hv]; decide), hv]

/-- A highest price of 10.0 after 15:00. -/
def lateHigh : Mem := lv2Frame [0, 0, 0, 0, 0, 0, 0x24, 0x40] late

/-- An entry that has the values of that message. -/
def filledEntry : QuotaInfo := fillEntry .zero (Lv2Message.ofMem (lateHigh.shift 42))

example : filledEntry.high = 10 := by decide +kernel

/-- The message finds nothing to write. -/
theorem no_trace_iff_filled : ∃ r', handle (fun _ _ => true) ⟨[(charsToUint128 lc2601, filledEntry)], []⟩
      (.lv2 lateHigh 0) = some (r', some .afterClose) ∧
    r'.items = [(charsToUint128 lc2601, filledEntry)] := by
  have hsymbol : cstr (Lv2Message.ofMem (lateHigh.shift 42)).symbol = some lc2601 := by decide +kernel
  have h := @late_rejected filledEntry lateHigh (by decide +kernel) hsymbol (by decide +kernel)
  refine ⟨_, h, (no_trace_iff h (by decide)).mpr fun cache hc => ?_⟩
  have hentry : entryOf ⟨[(charsToUint128 lc2601, filledEntry)], []⟩ lc2601 = some filledEntry := by
    rw [entryOf, find_singleton rfl]
    rfl
  rw [hsymbol, Option.bind_some, hentry, Option.some.injEq] at hc
  exact hc ▸ fillEntry_eq_iff.mp rfl

/-- **Counterexample.** A message after 15:00 is dropped, and its highest price stands in
the entry. -/
theorem late_message_leaves_high : ∃ r', handle (fun _ _ => true) oneInstrument
      (.lv2 (lv2Frame [0, 0, 0, 0, 0, 0, 0x24, 0x40] late) 0) = some (r', some .afterClose) ∧
    (valueAt r'.items 0).map QuotaInfo.high ≠ (valueAt oneInstrument.items 0).map QuotaInfo.high := by
  have h := @late_rejected .zero (lv2Frame [0, 0, 0, 0, 0, 0, 0x24, 0x40] late) (by decide +kernel)
    (by decide +kernel) (by decide +kernel)
  exact ⟨_, h, by decide +kernel⟩

end MdInfoSet.L4.ExanicHandlers
