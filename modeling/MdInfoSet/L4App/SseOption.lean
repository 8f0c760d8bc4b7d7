import MdInfoSet.L1Encoding.SseMessage
import MdInfoSet.L4App.NanoGfex
import MdInfoSet.L4App.SzseOption

/-!
# SSE snapshots

`QxShMdEtfOptionExanic::OnData` (src/sse_etf_mdsh_exanic/src/qx_sh_md_etf_exanic.cpp:200-363).
A frame holds one message. The open, high and low of the day are kept in `m_fb_md_interval`
under the eight bytes of the instrument, in the unit the prices are sent in.
-/
namespace MdInfoSet.L4.SseOption

open MdInfoSet.L1.SseMessage MdInfoSet.L4.Publish
open MdInfoSet.L4.NanoGfex (MdInterval)
open MdInfoSet.L4.SzseOption (hhmmssToUtcSeconds2)

/-- `MDSTREAMTYPE_D004`, `MDSTREAMTYPE_D301` and `MDSTREAMTYPE_D102`: the second is that of options. -/
def mdStreamTypeD004 : Nat := 0x34303044
def mdStreamTypeD301 : Nat := 0x31303344
def mdStreamTypeD102 : Nat := 0x32303144

/-- `FB_EXCHANGE_SSE` (fb_md_type.h:29) -/
def fbExchangeSse : UInt8 := 0x34

/-- `m_fb_md_interval` -/
structure Receiver where
  fbMdInterval : Nat → Option MdInterval

def Receiver.start : Receiver := ⟨fun _ => none⟩

/-- The name of the instrument: six bytes, or the eight of an option (cpp:241-248). -/
def SseMsg.inst (msgdata : SseMsg) : Bytes :=
  if msgdata.mdType = mdStreamTypeD301 then msgdata.securityId else msgdata.securityId.take 6

/-- The key of a name: what `strncpy` puts into eight zeroed bytes (cpp:252-254). -/
def instKey (inst : Bytes) : Nat := (Mem.ofBytes (inst.takeWhile (· ≠ 0))).u64 0

/-- The prices of the day so far, after a message (cpp:255-270). -/
def updateInterval (entry : Option MdInterval) (lastPrice : UInt64) : MdInterval :=
  let i := entry.getD ⟨lastPrice.toFloat, lastPrice.toFloat, lastPrice.toFloat⟩
  let i := if (i.open' != i.open') = true ∧ lastPrice > 0 then { i with open' := lastPrice.toFloat } else i
  let i := if lastPrice.toFloat > i.high then { i with high := lastPrice.toFloat } else i
  if lastPrice.toFloat < i.low then { i with low := lastPrice.toFloat } else i

/-- One side of the book (cpp:300-319). -/
def depth (price : Fin 5 → UInt64) (volume : Fin 5 → UInt32) : (Fin 5 → Float) × (Fin 5 → Int32) :=
  (fun i => convertPriceIfVolumeZero ((price i).toFloat / 100000) (volume i), fun i => (volume i).toInt32)

/-- The record of a message (cpp:282-319). -/
def fill (reset : MarketData) (localTimeNsStart : UInt64) (msgdata : SseMsg) (mdInterval : MdInterval) :
    MarketData :=
  let fbMd := { reset with
    localTimestamp := localTimeNsStart
    maxDepth := 5
    instrumentId := (SseMsg.inst msgdata).takeWhile (· ≠ 0)
    exchangeId := fbExchangeSse
    updateSec := Int32.ofNat (hhmmssToUtcSeconds2 (msgdata.timestamp / 1000).toNat)
    updateMsec := (msgdata.timestamp % 1000).toInt32
    open' := convertPriceIfZero mdInterval.open'
    close := convertPriceIfZero (msgdata.lastPrice.toFloat / 100000)
    highPrice := convertPriceIfZero mdInterval.high
    lowPrice := convertPriceIfZero mdInterval.low
    lastPrice := convertPriceIfZero (msgdata.lastPrice.toFloat / 100000)
    volume := msgdata.totalVolume.toUInt32.toInt32
    turnOver := msgdata.totalValue.toFloat / 100
    openInterest := msgdata.openInterest.toFloat }
  if msgdata.length.toNat = sseMsgSize then
    let (askPrice, askVolume) := depth msgdata.askPrice msgdata.askVolume
    let (bidPrice, bidVolume) := depth msgdata.bidPrice msgdata.bidVolume
    { fbMd with askPrice := askPrice, askVolume := askVolume, bidPrice := bidPrice, bidVolume := bidVolume }
  else fbMd

/-- The book leaves the time as it was set. -/
theorem fill_time (reset : MarketData) (localTimeNsStart : UInt64) (msgdata : SseMsg) (mdInterval : MdInterval) :
    (fill reset localTimeNsStart msgdata mdInterval).updateSec =
        Int32.ofNat (hhmmssToUtcSeconds2 (msgdata.timestamp / 1000).toNat) ∧
      (fill reset localTimeNsStart msgdata mdInterval).updateMsec = (msgdata.timestamp % 1000).toInt32 := by
  unfold fill
  split
  · exact ⟨rfl, rfl⟩
  · exact ⟨rfl, rfl⟩

/-- mirrors src/sse_etf_mdsh_exanic/src/qx_sh_md_etf_exanic.cpp:200-347
`belongTo` is the look-up in the configured addresses, `filter` that in `m_option_info`, which
an option is not looked up in. Returns the record passed to `on_msg`, if there is one. -/
def onData (belongTo : Nat → Nat → Bool) (filter : Bytes → Bool) (reset : MarketData) (r : Receiver)
    (databuffer : Mem) (localTimeNsStart : UInt64) : Receiver × Option MarketData :=
  if belongTo (databuffer.u32 30) (databuffer.u16 36) then
    let msgdata := SseMsg.ofMem databuffer 42
    if msgdata.mdType ∉ [mdStreamTypeD004, mdStreamTypeD301, mdStreamTypeD102] then (r, none)
    else
      let inst := SseMsg.inst msgdata
      if msgdata.mdType ≠ mdStreamTypeD301 ∧ ¬ filter inst then (r, none)
      else
        let mdInterval := updateInterval (r.fbMdInterval (instKey inst)) msgdata.lastPrice
        ({ r with fbMdInterval := Function.update r.fbMdInterval (instKey inst) (some mdInterval) },
          some (fill reset localTimeNsStart msgdata mdInterval))
  else (r, none)

/-! ## One frame -/

/-- The message of a frame. -/
abbrev message (frame : Mem × UInt64) : SseMsg := SseMsg.ofMem frame.1 42

/-- The frame is for a configured address and holds a quote of an option or of a subscribed
instrument. -/
def Accepted (belongTo : Nat → Nat → Bool) (filter : Bytes → Bool) (frame : Mem × UInt64) : Prop :=
  belongTo (frame.1.u32 30) (frame.1.u16 36) = true ∧
    (message frame).mdType ∈ [mdStreamTypeD004, mdStreamTypeD301, mdStreamTypeD102] ∧
    ((message frame).mdType = mdStreamTypeD301 ∨ filter (SseMsg.inst (message frame)) = true)

/-- The key of the instrument of a frame. -/
def key (frame : Mem × UInt64) : Nat := instKey (SseMsg.inst (message frame))

section Frame

variable {belongTo : Nat → Nat → Bool} {filter : Bytes → Bool} {reset : MarketData} {r : Receiver}
  {frame : Mem × UInt64}

theorem onData_ignored (h : ¬ Accepted belongTo filter frame) :
    onData belongTo filter reset r frame.1 frame.2 = (r, none) := by
  unfold onData
  by_cases hb : belongTo (frame.1.u32 30) (frame.1.u16 36) = true
  · rw [if_pos hb]
    dsimp only
    by_cases ht : (message frame).mdType ∈ [mdStreamTypeD004, mdStreamTypeD301, mdStreamTypeD102]
    · have hf : ¬ ((message frame).mdType = mdStreamTypeD301 ∨ filter (SseMsg.inst (message frame)) = true) :=
        fun hf => h ⟨hb, ht, hf⟩
      rw [if_neg (not_not_intro ht), if_pos (not_or.mp hf)]
    · rw [if_pos ht]
  · rw [if_neg hb]

theorem onData_accepted (h : Accepted belongTo filter frame) :
    onData belongTo filter reset r frame.1 frame.2 =
      ({ r with
          fbMdInterval := Function.update r.fbMdInterval (key frame)
            (some (updateInterval (r.fbMdInterval (key frame)) (message frame).lastPrice)) },
        some (fill reset frame.2 (message frame)
          (updateInterval (r.fbMdInterval (key frame)) (message frame).lastPrice))) := by
  obtain ⟨hb, ht, hf⟩ := h
  have hpass : ¬ ((message frame).mdType ≠ mdStreamTypeD301 ∧ ¬ filter (SseMsg.inst (message frame)) = true) :=
    fun hno => hf.elim hno.1 hno.2
  unfold onData
  rw [if_pos hb]
  dsimp only
  rw [if_neg (not_not_intro ht), if_neg hpass]
  rfl

end Frame

/-- What is published is the record of the message with the interval of its instrument. -/
theorem onData_published {belongTo : Nat → Nat → Bool} {filter : Bytes → Bool} {reset fbMd : MarketData}
    {r r' : Receiver} {databuffer : Mem} {localTimeNsStart : UInt64}
    (h : onData belongTo filter reset r databuffer localTimeNsStart = (r', some fbMd)) :
    ∃ mdInterval, r'.fbMdInterval (instKey (SseMsg.inst (SseMsg.ofMem databuffer 42))) = some mdInterval ∧
      fbMd = fill reset localTimeNsStart (SseMsg.ofMem databuffer 42) mdInterval := by
  by_cases ha : Accepted belongTo filter (databuffer, localTimeNsStart)
  · have hdata := @onData_accepted belongTo filter reset r (databuffer, localTimeNsStart) ha
    rw [h, Prod.mk.injEq, Option.some.injEq] at hdata
    refine ⟨_, ?_, hdata.2⟩
    rw [hdata.1]
    dsimp only
    rw [key, Function.update_self]
  · have hdata := @onData_ignored belongTo filter reset r (databuffer, localTimeNsStart) ha
    rw [h] at hdata
    cases hdata

end MdInfoSet.L4.SseOption
