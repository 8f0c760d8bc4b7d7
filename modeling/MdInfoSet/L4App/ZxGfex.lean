import MdInfoSet.Core.EarlyExit
import MdInfoSet.L1Encoding.ZxMessage
import MdInfoSet.L4App.DceFilter
import MdInfoSet.L4App.Publish

/-!
# `DecodeMsg` of `zx_gfex_md`

src/zx_gfex_md/src/zx_gfex_md.cpp:593-716 walks the messages of a packet and
publishes a `Zx_BestDeep`. One with a time after 15:00 is not to be accepted, but
the check leaves by `return`, out of the loop and not only out of the `switch`:

    if(extime > (3600*15*1000)) return;

so the messages behind it are lost, of whatever instrument and time.

**Exact condition** (`decodeMsg_iff`). The quotes of a packet are published, each
once and in order, if and only if none that is in time stands behind one that is not.
-/
namespace MdInfoSet.L4.ZxGfex

open MdInfoSet.L1.Lv2Quote MdInfoSet.L1.ZxMessage MdInfoSet.L4.Publish

/-- mirrors src/zx_gfex_md/src/zx_gfex_md.h:445-461
The body is that of dce_nano.cpp:322-338: the first 12 characters are read. -/
def timeStrToUtcS (timeStr : Mem) : UInt64 := DceFilter.timeStrToUtcS fun i => timeStr i

/-- `3600*15*1000` -/
def closeTime : UInt64 := 54000000

/-- The record passed to `on_msg` (cpp:624-681). -/
def quote (reset : MarketData) (localTimeNs : UInt64) (msgdata : ZxBestDeep) : MarketData :=
  let extime := timeStrToUtcS msgdata.arrGenTime
  { reset with
    localTimestamp := localTimeNs
    instrumentId := (cstr msgdata.arrInstrument).getD []
    exchangeId := fbExchangeGfex
    updateSec := updateSec extime
    updateMsec := updateMsec extime
    open' := convertPriceIfZero msgdata.dOpenPrice
    close := convertPriceIfZero msgdata.dClosePrice
    highPrice := convertPriceIfZero msgdata.dHighPrice
    lowPrice := convertPriceIfZero msgdata.dLowPrice
    lastPrice := convertPriceIfZero msgdata.dLastPrice
    upperLimitPrice := convertPriceIfZero msgdata.dRiseLimit
    downLimitPrice := convertPriceIfZero msgdata.dFallLimit
    preOpenInterest := convertPriceIfZero (Float.ofInt msgdata.iInitOpenInterest.toInt)
    preSettlement := convertPriceIfZero msgdata.dLastClearPrice
    volume := msgdata.iMatchTotQty
    turnOver := msgdata.dTurnover
    openInterest := Float.ofInt msgdata.iOpenInterest.toInt
    maxDepth := 5
    iopv := iopvTagLv2
    askPrice := fun i => convertPriceIfVolumeZero (msgdata.ask i).price (msgdata.ask i).volume.toUInt32
    askVolume := fun i => (msgdata.ask i).volume
    bidPrice := fun i => convertPriceIfVolumeZero (msgdata.bid i).price (msgdata.bid i).volume.toUInt32
    bidVolume := fun i => (msgdata.bid i).volume }

section Decode

variable (reset : MarketData) (getNanoseconds : Nat → UInt64) (data : Mem)

/-- mirrors src/zx_gfex_md/src/zx_gfex_md.cpp:605-715
The loop from `iProcSize` on: the records passed to `on_msg`. `getNanoseconds off`
is the reading of the clock for the message whose payload is at `off`. -/
def decodeLoop (dataLen : Int) (iProcSize : Nat) : List MarketData :=
  if dataLen - (iProcSize + zxMsgHeadSize) ≤ 0 then []
  else
    let msgHead := ZxMsgHead.ofMem data iProcSize
    let payload := iProcSize + zxMsgHeadSize
    if msgHead.iMsgType = msgZxBestDeep then
      let msgdata := ZxBestDeep.ofMem data payload
      if timeStrToUtcS msgdata.arrGenTime > closeTime then []
      else quote reset (getNanoseconds payload) msgdata :: decodeLoop dataLen (payload + msgHead.iMsgSize)
    else if msgZxBestDeep < msgHead.iMsgType ∧ msgHead.iMsgType ≤ msgZxMatchPriceQty then
      decodeLoop dataLen (payload + msgHead.iMsgSize)
    else [] -- `assert(0)`
termination_by (dataLen - iProcSize).toNat
decreasing_by all_goals simp only [zxMsgHeadSize] at *; omega

/-- mirrors src/zx_gfex_md/src/zx_gfex_md.cpp:593-716
`size` is passed as an `int32_t`; an `iPktSize` that differs from it is only logged. -/
def decodeMsg (size : Nat) : List MarketData :=
  decodeLoop reset getNanoseconds data (Int.bmod size (2 ^ 32)) zxPacketHeadSize

end Decode

/-! ## The messages of a packet -/

/-- The quote a message carries. -/
def bestDeep (m : Message) : ZxBestDeep := .ofBytes m.payload

/-- A `Zx_BestDeep` after 15:00. -/
def late (m : Message) : Bool :=
  m.iMsgType = msgZxBestDeep ∧ timeStrToUtcS (bestDeep m).arrGenTime > closeTime

/-- A `Zx_BestDeep` that is to be published. -/
def inTime (m : Message) : Bool :=
  m.iMsgType = msgZxBestDeep ∧ ¬ timeStrToUtcS (bestDeep m).arrGenTime > closeTime

/-- The messages, each with the offset of its payload. -/
def placed (off : Nat) : List Message → List (Nat × Message)
  | [] => []
  | m :: ms => (off + zxMsgHeadSize, m) :: placed (off + m.bytes.length) ms

theorem placed_snd (off : Nat) (ms : List Message) : (placed off ms).map Prod.snd = ms := by
  induction ms generalizing off with
  | nil => rfl
  | cons m ms ih => simp [placed, ih]

/-- A quote in time is not late. -/
theorem not_late_of_inTime {m : Message} (h : inTime m = true) : late m = false := by
  simp only [inTime, decide_eq_true_eq] at h
  simp [late, h.2]

section Loop

variable {reset : MarketData} {getNanoseconds : Nat → UInt64} {data : Mem}

theorem decodeLoop_end {dataLen : Int} {off : Nat} (h : dataLen ≤ off + zxMsgHeadSize) :
    decodeLoop reset getNanoseconds data dataLen off = [] := by
  rw [decodeLoop, if_pos (by omega)]

/-- One round, on a message. -/
theorem decodeLoop_message {dataLen : Int} {off : Nat} {m : Message} (h : off + zxMsgHeadSize < dataLen)
    (hm : (data.shift off).Starts m.bytes) :
    decodeLoop reset getNanoseconds data dataLen off =
      if late m = true then []
      else (if inTime m = true then
          [quote reset (getNanoseconds (off + zxMsgHeadSize)) (bestDeep m)] else []) ++
        decodeLoop reset getNanoseconds data dataLen (off + m.bytes.length) := by
  obtain ⟨hhead, hpay⟩ := m.head_of_starts hm
  have hnext : off + zxMsgHeadSize + m.payload.length = off + m.bytes.length := by
    rw [m.bytes_length]
    omega
  rw [decodeLoop, if_neg (by omega), hhead]
  dsimp only
  rw [hnext]
  by_cases htype : m.iMsgType = msgZxBestDeep
  · have hmd : ZxBestDeep.ofMem data (off + zxMsgHeadSize) = bestDeep m := by
      rw [ZxBestDeep.ofMem, ← m.full htype, hpay]
      rfl
    rw [if_pos htype, hmd]
    by_cases hlate : timeStrToUtcS (bestDeep m).arrGenTime > closeTime
    · simp [late, htype, hlate]
    · simp [late, inTime, htype, hlate]
  · have hdecl : msgZxBestDeep < m.iMsgType ∧ m.iMsgType ≤ msgZxMatchPriceQty := by
      have := m.declared
      omega
    simp [late, inTime, htype, hdecl]

/-- What the loop publishes of the messages laid out from `off` on: the quotes in
front of the first that is late. -/
theorem decodeLoop_eq {off : Nat} {ms : List Message} (h : (data.shift off).Starts (encode ms)) :
    decodeLoop reset getNanoseconds data (off + (encode ms).length : Nat) off =
      (((placed off ms).takeWhile fun x => !late x.2).filter fun x => inTime x.2).map
        fun x => quote reset (getNanoseconds x.1) (bestDeep x.2) := by
  induction ms generalizing off with
  | nil => exact decodeLoop_end (by simp only [encode, List.map_nil, List.flatten_nil, List.length_nil]; omega)
  | cons m ms ih =>
    rw [show encode (m :: ms) = m.bytes ++ encode ms from rfl] at h ⊢
    have hlen : off + (m.bytes ++ encode ms).length = off + m.bytes.length + (encode ms).length := by
      rw [List.length_append]
      omega
    have hrest : (data.shift (off + m.bytes.length)).Starts (encode ms) := by
      have := h.right
      rwa [Mem.shift_shift] at this
    by_cases hlast : m.payload.length + (encode ms).length = 0
    · -- nothing follows the head of the message, which is no quote and the last
      have hms : ms = [] := by
        cases ms with
        | nil => rfl
        | cons m' ms =>
          have := m'.bytes_length
          simp only [encode, List.map_cons, List.flatten_cons, List.length_append, zxMsgHeadSize] at hlast this
          omega
      have htype : m.iMsgType ≠ msgZxBestDeep := fun h => by
        have := m.full h
        unfold zxBestDeepSize at this
        omega
      rw [decodeLoop_end (by rw [hlen, m.bytes_length]; omega)]
      simp [hms, placed, late, inTime, htype]
    · rw [decodeLoop_message (by rw [hlen, m.bytes_length]; omega) h.left, hlen, ih hrest, placed]
      cases hlate : late m with
      | true => simp [hlate]
      | false => cases hin : inTime m <;> simp [hlate, hin]

end Loop

/-- **Exact condition.** What `DecodeMsg` publishes of a packet. -/
theorem decodeMsg_iff {reset : MarketData} {getNanoseconds : Nat → UInt64} {data : Mem} {ms : List Message}
    (hd : (data.shift zxPacketHeadSize).Starts (encode ms))
    (hlen : zxPacketHeadSize + (encode ms).length < 2 ^ 31) :
    decodeMsg reset getNanoseconds data (zxPacketHeadSize + (encode ms).length) =
        ((placed zxPacketHeadSize ms).filter fun x => inTime x.2).map
          (fun x => quote reset (getNanoseconds x.1) (bestDeep x.2)) ↔
      ms.Pairwise fun m m' => late m = true → inTime m' = false := by
  have hsize : Int.bmod (zxPacketHeadSize + (encode ms).length : Nat) (2 ^ 32) =
      (zxPacketHeadSize + (encode ms).length : Nat) := Int.bmod_eq_of_le (by omega) (by omega)
  have hp := fun x : Nat × Message => @not_late_of_inTime x.2
  rw [decodeMsg, hsize, decodeLoop_eq hd, EarlyExit.map_takeWhile_filter_iff _ fun x h => by simp [hp x h]]
  simp only [Bool.not_eq_false']
  have hmap := @List.pairwise_map _ _ Prod.snd (fun m m' => late m = true → inTime m' = false)
    (placed zxPacketHeadSize ms)
  rw [placed_snd] at hmap
  exact hmap.symm

/-- A quote with the given `HH:MM:SS.mmm`, all other bytes 0. -/
def sampleQuote (time : Bytes) (h : time.length = 12) : Message where
  iSequence := [0, 0, 0, 0]
  iMsgType := msgZxBestDeep
  payload := List.replicate 27 0 ++ time ++ List.replicate 292 0
  sequence_length := rfl
  declared := by decide
  size := by simp only [List.length_append, List.length_replicate, h]; decide
  full _ := by simp only [List.length_append, List.length_replicate, h]; rfl

/-- 14:59:59.500 and 15:00:00.500 -/
def before15 : Message :=
  sampleQuote [0x31, 0x34, 0x3a, 0x35, 0x39, 0x3a, 0x35, 0x39, 0x2e, 0x35, 0x30, 0x30] rfl
def after15 : Message :=
  sampleQuote [0x31, 0x35, 0x3a, 0x30, 0x30, 0x3a, 0x30, 0x30, 0x2e, 0x35, 0x30, 0x30] rfl

/-- The packet of some messages, with a zeroed head. -/
def packet (ms : List Message) : Mem := Mem.ofBytes (List.replicate zxPacketHeadSize 0 ++ encode ms)

theorem packet_starts (ms : List Message) : ((packet ms).shift zxPacketHeadSize).Starts (encode ms) := by
  have := (Mem.starts_ofBytes (List.replicate zxPacketHeadSize 0 ++ encode ms)).right
  rwa [List.length_replicate] at this

/-- The late quote last: the other one is published. -/
theorem decodeMsg_iff_lateLast :
    decodeMsg .zero (fun _ => 0) (packet [before15, after15])
        (zxPacketHeadSize + (encode [before15, after15]).length) =
      ((placed zxPacketHeadSize [before15, after15]).filter fun x => inTime x.2).map
        fun x => quote .zero 0 (bestDeep x.2) :=
  (decodeMsg_iff (packet_starts _) (by decide +kernel)).mpr (by decide +kernel)

/-- **Counterexample.** The late quote first: the other one is lost. -/
theorem quote_lost_behind_late :
    decodeMsg .zero (fun _ => 0) (packet [after15, before15])
        (zxPacketHeadSize + (encode [after15, before15]).length) = [] ∧
      ((placed zxPacketHeadSize [after15, before15]).filter fun x => inTime x.2).map
        (fun x => quote .zero 0 (bestDeep x.2)) ≠ [] := by
  have hsize : Int.bmod (zxPacketHeadSize + (encode [after15, before15]).length : Nat) (2 ^ 32) =
      (zxPacketHeadSize + (encode [after15, before15]).length : Nat) := by decide +kernel
  have hlate : late after15 = true := by decide +kernel
  have hin : inTime before15 = true := by decide +kernel
  constructor
  · rw [decodeMsg, hsize, decodeLoop_eq (packet_starts _)]
    simp [placed, hlate]
  · simp [placed, hin]

end MdInfoSet.L4.ZxGfex
