import MdInfoSet.Core.PackedRecord
import MdInfoSet.L1Encoding.CffexQuote
import MdInfoSet.L2Machine.ExanicRx
import MdInfoSet.L4App.Publish
import MdInfoSet.L4App.TimeStrings

/-!
# The CFFEX plugin

`CFFEXExanicQuota::OnData` (src/cffex_md_exanic/src/exanic_md.cpp:308-441) takes one frame off
the card and publishes it, if it has the length of a quote and is one of an index future: the
code has six characters and does not begin with a `T`, as those of the treasury futures do.

A frame that is no quote is dropped by its length alone, before any of the record is looked at.
A code that does not end within `databuffer` is undefined: `none`.

**Round trip** (`onData_encode`). Whatever the exchange puts into a quote is published as it is,
whatever stands in the gaps of the record and behind it in the buffer: `Quote.encode` writes the
record field by field as the header lists it, `Quote.record` is the published record.
-/
namespace MdInfoSet.L4.CffexQuota

open MdInfoSet.L1.Lv2Quote MdInfoSet.L1.DceL2 MdInfoSet.L1.CffexQuote MdInfoSet.PackedRecord
open MdInfoSet.L2.ExanicRx (Received)
open MdInfoSet.L4.DceClock (digitChar digit_digitChar)
open MdInfoSet.L4.DceFilter (digit)
open MdInfoSet.L4.TimeStrings (cstr_of_ends)
open MdInfoSet.L4.Publish

/-- `FB_EXCHANGE_CFFEX` (fb_md_type.h:25) -/
def fbExchangeCffex : UInt8 := 0x30

/-- mirrors src/cffex_md_exanic/src/exanic_md.cpp:260-274 -/
def timeStrToUtcS (timeStr : Mem) : UInt64 :=
  let hours := digit (timeStr 0) * 10 + digit (timeStr 1)
  let minutes := digit (timeStr 3) * 10 + digit (timeStr 4)
  let seconds := digit (timeStr 6) * 10 + digit (timeStr 7)
  UInt64.ofInt (hours * 3600 + minutes * 60 + seconds)

/-- The record passed to `on_msg` (cpp:349-398). -/
def fill (reset : MarketData) (localTimeNs : UInt64) (inst : Bytes) (msgdata : CffexIncQuotaData) : MarketData :=
  let extime := timeStrToUtcS msgdata.updateTime
  { reset with
    localTimestamp := localTimeNs
    exchangeId := fbExchangeCffex
    updateSec := extime.toUInt32.toInt32
    updateMsec := msgdata.updateMillisec.toInt32
    maxDepth := 5
    instrumentId := inst
    upperLimitPrice := convertPriceIfZero msgdata.upperlimitPrice
    downLimitPrice := convertPriceIfZero msgdata.lowerlimitPrice
    openInterest := msgdata.openInterest
    open' := convertPriceIfZero msgdata.openPrice
    close := convertPriceIfZero msgdata.closePrice
    highPrice := convertPriceIfZero msgdata.highestPrice
    lowPrice := convertPriceIfZero msgdata.lowestPrice
    lastPrice := convertPriceIfZero msgdata.lastPrice
    volume := msgdata.volume.toInt32
    turnOver := msgdata.turnover
    askPrice := fun i => convertPriceIfVolumeZero (msgdata.askPrice i) (msgdata.askVolume i)
    askVolume := fun i => (msgdata.askVolume i).toInt32
    bidPrice := fun i => convertPriceIfVolumeZero (msgdata.bidPrice i) (msgdata.bidVolume i)
    bidVolume := fun i => (msgdata.bidVolume i).toInt32 }

/-- mirrors src/cffex_md_exanic/src/exanic_md.cpp:308-441
`r` is what `exanic_receive_frame` has left, `beyond` what stood in the buffer behind it. -/
def onData (reset : MarketData) (localTimeNs : UInt64) (beyond : Mem) (r : Received) : Option (Option MarketData) :=
  let databuffer := Seg.mem ⟨r.rxBuf, beyond⟩
  if r.ret ≠ 288 ∨ databuffer 2 = 0x54 then some none
  else
    let msgdata := CffexIncQuotaData.ofMem databuffer
    (cstr msgdata.instrumentId).map fun inst =>
      if inst.length ≠ 6 then none else some (fill reset localTimeNs inst msgdata)

/-! ## What the exchange sends -/

/-- One side of a level; a price is the bits of a `double`. -/
structure Level where
  price : UInt64
  volume : UInt32

structure Quote where
  code : Bytes
  time : DayTime
  open' : UInt64
  high : UInt64
  low : UInt64
  close : UInt64
  upper : UInt64
  lower : UInt64
  settlement : UInt64
  currdelta : UInt64
  last : UInt64
  volume : UInt32
  turnover : UInt64
  openInterest : UInt64
  bid : Fin 5 → Level
  ask : Fin 5 → Level
  band1 : UInt64
  band2 : UInt64
  -- it leaves room for the zero behind it
  code_le : code.length ≤ 30
  code_chars : ∀ c ∈ code, c ≠ 0

/-- `HH:MM:SS` and the terminating zero. -/
def timeText (t : DayTime) : Bytes :=
  [digitChar (t.hour / 10), digitChar t.hour, 0x3a, digitChar (t.minute / 10), digitChar t.minute, 0x3a,
    digitChar (t.second / 10), digitChar t.second, 0]

/-- Two prices and their volumes, as the book has them. -/
def block (x y : Level) : List Bytes :=
  [le 8 x.price.toNat, le 8 y.price.toNat, le 4 x.volume.toNat, le 4 y.volume.toNat]

namespace Quote

/-- The fields before the book, from `Padding1` to `OpenInterest`; what stands in the gaps is
taken from `gaps`. -/
def head (q : Quote) (gaps : Mem) : List Bytes :=
  [gaps.slice 0 2, q.code ++ 0 :: gaps.slice 2 (30 - q.code.length), gaps.slice 33 7, timeText q.time, le 4 q.time.milli,
    gaps.slice 53 3, le 8 q.open'.toNat, le 8 q.high.toNat, le 8 q.low.toNat, le 8 q.close.toNat, le 8 q.upper.toNat,
    le 8 q.lower.toNat, le 8 q.settlement.toNat, le 8 q.currdelta.toNat, le 8 q.last.toNat, le 4 q.volume.toNat,
    gaps.slice 132 4, le 8 q.turnover.toNat, le 8 q.openInterest.toNat]

/-- All fields in their order. -/
def fields (q : Quote) (gaps : Mem) : List Bytes :=
  q.head gaps ++ block (q.bid 0) (q.ask 0) ++ block (q.bid 1) (q.bid 2) ++ block (q.ask 1) (q.ask 2) ++
    block (q.bid 3) (q.bid 4) ++ block (q.ask 3) (q.ask 4) ++ [le 8 q.band1.toNat, le 8 q.band2.toNat]

def encode (q : Quote) (gaps : Mem) : Bytes := (q.fields gaps).flatten

/-- The lengths of the fields. -/
def lens : List Nat :=
  [2, 31, 7, 9, 4, 3, 8, 8, 8, 8, 8, 8, 8, 8, 8, 4, 4, 8, 8,
    8, 8, 4, 4, 8, 8, 4, 4, 8, 8, 4, 4, 8, 8, 4, 4, 8, 8, 4, 4, 8, 8]

variable (q : Quote) (gaps : Mem)

theorem fields_lens : (q.fields gaps).map List.length = lens := by
  have hcode := q.code_le
  simp [fields, head, lens, timeText, block]
  omega

theorem encode_length : (q.encode gaps).length = 288 := by
  rw [encode, List.length_flatten, fields_lens]
  rfl

end Quote

/-! ## Reading it back -/

section Reads

variable {d : Mem} {q : Quote} {gaps : Mem} (h : d.Starts (q.encode gaps))

include h

/-- A `double` of the record. -/
theorem read_f64 (i : Nat) {off : Nat} {v : UInt64} (hv : (q.fields gaps)[i]? = some (le 8 v.toNat))
    (hoff : (Quote.lens.take i).sum = off) : f64 d off = Float.ofBits v := f64_at h (q.fields_lens gaps) hv hoff

/-- An `unsigned int`. -/
theorem read_uint32 (i : Nat) {off : Nat} {v : UInt32} (hv : (q.fields gaps)[i]? = some (le 4 v.toNat))
    (hoff : (Quote.lens.take i).sum = off) : uint32 d off = v := uint32_at h (q.fields_lens gaps) hv hoff

theorem read_milli : (uint32 d 49).toNat = q.time.milli := by
  have hlt := q.time.milli_lt
  have hfield : d.slice 49 4 = le 4 q.time.milli := field_at h (q.fields_lens gaps) (i := 4) rfl
  rw [uint32, u32_of_le hfield, UInt32.toNat_ofNat']
  omega

/-- The characters of the time. -/
theorem read_time (i : Nat) (hi : i < 9) : (timeText q.time)[i]? = some (d (40 + i)) := by
  have hfield : d.slice 40 9 = timeText q.time := field_at h (q.fields_lens gaps) (i := 3) rfl
  rw [← hfield, Mem.slice, List.getElem?_map, List.getElem?_range hi]
  rfl

/-- The instrument is the C string in its field. -/
theorem read_code : cstr (d.slice 2 (databufferSize - 2)) = some q.code := by
  have hcode := q.code_le
  have hfield : d.slice 2 31 = q.code ++ 0 :: gaps.slice 2 (30 - q.code.length) := by
    have := field_at h (q.fields_lens gaps) (i := 1) rfl
    rwa [List.length_append, List.length_cons, Mem.slice_length, show q.code.length + (30 - q.code.length + 1) = 31 by omega] at this
  have hcstr : cstr (d.slice 2 31) = some q.code := by
    rw [hfield, cstr_of_ends q.code_chars]
  rw [databufferSize, show 1024 - 2 = 31 + 991 by rfl, Mem.slice_add, cstr_append (by rw [hcstr]; rfl), hcstr]

/-- Every price of the book. -/
theorem read_book (i : Fin 5) :
    f64 d (bidPriceAt i) = Float.ofBits (q.bid i).price ∧ uint32 d (bidVolumeAt i) = (q.bid i).volume ∧
      f64 d (askPriceAt i) = Float.ofBits (q.ask i).price ∧ uint32 d (askVolumeAt i) = (q.ask i).volume := by
  match i with
  | 0 => exact ⟨read_f64 h 19 rfl rfl, read_uint32 h 21 rfl rfl, read_f64 h 20 rfl rfl, read_uint32 h 22 rfl rfl⟩
  | 1 => exact ⟨read_f64 h 23 rfl rfl, read_uint32 h 25 rfl rfl, read_f64 h 27 rfl rfl, read_uint32 h 29 rfl rfl⟩
  | 2 => exact ⟨read_f64 h 24 rfl rfl, read_uint32 h 26 rfl rfl, read_f64 h 28 rfl rfl, read_uint32 h 30 rfl rfl⟩
  | 3 => exact ⟨read_f64 h 31 rfl rfl, read_uint32 h 33 rfl rfl, read_f64 h 35 rfl rfl, read_uint32 h 37 rfl rfl⟩
  | 4 => exact ⟨read_f64 h 32 rfl rfl, read_uint32 h 34 rfl rfl, read_f64 h 36 rfl rfl, read_uint32 h 38 rfl rfl⟩

end Reads

/-! ## The round trip -/

/-- An index future. -/
def Quote.Future (q : Quote) : Prop := q.code.length = 6 ∧ q.code.head? ≠ some 0x54

instance (q : Quote) : Decidable q.Future := by unfold Quote.Future; infer_instance

/-- A price of the day; 0 stands for none. -/
def dayPrice (bits : UInt64) : Float := convertPriceIfZero (Float.ofBits bits)

/-- The price of a level. -/
def Level.published (l : Level) : Float := convertPriceIfVolumeZero (Float.ofBits l.price) l.volume

/-- What is to be published for a quote. -/
def Quote.record (reset : MarketData) (localTimeNs : UInt64) (q : Quote) : MarketData :=
  { reset with
    localTimestamp := localTimeNs
    exchangeId := fbExchangeCffex
    updateSec := Int32.ofNat q.time.seconds
    updateMsec := Int32.ofNat q.time.milli
    maxDepth := 5
    instrumentId := q.code
    upperLimitPrice := dayPrice q.upper
    downLimitPrice := dayPrice q.lower
    openInterest := Float.ofBits q.openInterest
    open' := dayPrice q.open'
    close := dayPrice q.close
    highPrice := dayPrice q.high
    lowPrice := dayPrice q.low
    lastPrice := dayPrice q.last
    volume := q.volume.toInt32
    turnOver := Float.ofBits q.turnover
    askPrice := fun i => (q.ask i).published
    askVolume := fun i => (q.ask i).volume.toInt32
    bidPrice := fun i => (q.bid i).published
    bidVolume := fun i => (q.bid i).volume.toInt32 }

section RoundTrip

variable {d : Mem} {q : Quote} {gaps : Mem}

/-- The seconds of the day. -/
theorem read_seconds (h : d.Starts (q.encode gaps)) : timeStrToUtcS (d.shift 40) = UInt64.ofNat q.time.seconds := by
  have hbyte (i : Nat) (hi : i < 9) {c : UInt8} (hc : (timeText q.time)[i]? = some c) : d.shift 40 i = c := by
    rw [read_time h i hi] at hc
    exact Option.some.inj hc
  have hh := q.time.hour_lt
  have hm := q.time.minute_lt
  have hs := q.time.second_lt
  rw [timeStrToUtcS, hbyte 0 (by decide) rfl, hbyte 1 (by decide) rfl, hbyte 3 (by decide) rfl, hbyte 4 (by decide) rfl,
    hbyte 6 (by decide) rfl, hbyte 7 (by decide) rfl]
  simp only [digit_digitChar]
  have hval : (((q.time.hour / 10 % 10 : Nat) : Int) * 10 + (q.time.hour % 10 : Nat)) * 3600 +
      (((q.time.minute / 10 % 10 : Nat) : Int) * 10 + (q.time.minute % 10 : Nat)) * 60 +
      (((q.time.second / 10 % 10 : Nat) : Int) * 10 + (q.time.second % 10 : Nat)) = (q.time.seconds : Nat) := by
    rw [DayTime.seconds]
    omega
  rw [hval, UInt64.ofInt, Int.emod_eq_of_lt (by omega) (by have := q.time.seconds_lt; omega), Int.toNat_natCast]

/-- The prices of the day, and the totals. -/
theorem read_day (h : d.Starts (q.encode gaps)) :
    f64 d 56 = Float.ofBits q.open' ∧ f64 d 64 = Float.ofBits q.high ∧ f64 d 72 = Float.ofBits q.low ∧
      f64 d 80 = Float.ofBits q.close ∧ f64 d 88 = Float.ofBits q.upper ∧ f64 d 96 = Float.ofBits q.lower ∧
      f64 d 120 = Float.ofBits q.last ∧ uint32 d 128 = q.volume ∧ f64 d 136 = Float.ofBits q.turnover ∧
      f64 d 144 = Float.ofBits q.openInterest :=
  ⟨read_f64 h 6 rfl rfl, read_f64 h 7 rfl rfl, read_f64 h 8 rfl rfl, read_f64 h 9 rfl rfl, read_f64 h 10 rfl rfl,
    read_f64 h 11 rfl rfl, read_f64 h 14 rfl rfl, read_uint32 h 15 rfl rfl, read_f64 h 17 rfl rfl,
    read_f64 h 18 rfl rfl⟩

/-- The record as it is read is the record to be published. -/
theorem fill_ofMem (h : d.Starts (q.encode gaps)) (reset : MarketData) (localTimeNs : UInt64) :
    fill reset localTimeNs q.code (CffexIncQuotaData.ofMem d) = q.record reset localTimeNs := by
  have hbook := read_book h
  obtain ⟨hopen, hhigh, hlow, hclose, hupper, hlower, hlast, hvolume, hturnover, hinterest⟩ := read_day h
  have hsec : (UInt64.ofNat q.time.seconds).toUInt32.toInt32 = Int32.ofNat q.time.seconds := by
    rw [UInt64.toUInt32_ofNat', UInt32.toInt32_ofNat']
  have hmilli : (uint32 d 49).toInt32 = Int32.ofNat q.time.milli := by
    rw [← read_milli h, ← UInt32.toInt32_ofNat', UInt32.ofNat_toNat]
  simp only [fill, CffexIncQuotaData.ofMem, Quote.record, dayPrice, Level.published, read_seconds h, hsec, hmilli,
    fun i => (hbook i).1, fun i => (hbook i).2.1, fun i => (hbook i).2.2.1, fun i => (hbook i).2.2.2,
    hopen, hhigh, hlow, hclose, hupper, hlower, hlast, hvolume, hturnover, hinterest]

/-- The first character of the code, as the plugin looks at it. -/
theorem read_first (h : d.Starts (q.encode gaps)) : d 2 = 0x54 ↔ q.code.head? = some 0x54 := by
  obtain ⟨rest, hrest, -⟩ := eq_of_cstr (read_code h)
  have hfirst : (d.slice 2 (databufferSize - 2)).head? = some (d 2) := by
    rw [show databufferSize - 2 = 1021 + 1 from rfl, Mem.slice_succ, List.head?_cons]
  rw [hrest] at hfirst
  cases hcode : q.code with
  | nil =>
    rw [hcode] at hfirst
    simp [← Option.some.inj hfirst]
  | cons c code =>
    rw [hcode] at hfirst
    simp [← Option.some.inj hfirst]

theorem ofMem_instrumentId (d : Mem) : (CffexIncQuotaData.ofMem d).instrumentId = d.slice 2 (databufferSize - 2) := by
  rw [CffexIncQuotaData.ofMem]

/-- **Round trip.** -/
theorem onData_encode (reset : MarketData) (localTimeNs : UInt64) (beyond : Mem) {r : Received}
    (hret : r.ret = 288) (hbuf : r.rxBuf = q.encode gaps) : onData reset localTimeNs beyond r =
      some (if q.Future then some (q.record reset localTimeNs) else none) := by
  have h : (Seg.mem ⟨r.rxBuf, beyond⟩).Starts (q.encode gaps) := by
    rw [← hbuf]
    exact Seg.mem_starts _
  have hcode := read_code h
  rw [onData]
  by_cases hfirst : q.code.head? = some 0x54
  · rw [if_pos (.inr ((read_first h).mpr hfirst)), if_neg fun hf => hf.2 hfirst]
  · rw [if_neg fun hor => hor.elim (fun hne => hne hret) fun hT => hfirst ((read_first h).mp hT)]
    dsimp only
    rw [ofMem_instrumentId, hcode, Option.map_some, fill_ofMem h]
    by_cases hlen : q.code.length = 6
    · rw [if_neg (not_not.mpr hlen), if_pos ⟨hlen, hfirst⟩]
    · rw [if_pos hlen, if_neg fun hf => hlen hf.1]

end RoundTrip

end MdInfoSet.L4.CffexQuota
