import MdInfoSet.Core.DayTime
import MdInfoSet.L4App.DceDepth
import MdInfoSet.L4App.TimeStrings

/-!
# What DCE sends

The two market data messages of the DCE Level-2 feed, a best quote in 370 bytes and a depth in
366 (src/gz_dce_udp/src/gz_dce_md.h:117-205). `Best.encode` and `Depth.encode` write them field
by field as the header lists them; what the plugin does not look at is taken from `other`.

**Round trip** (`Best.ofBytes_encode`, `Depth.ofBytes_encode`). The structures the plugin casts
its buffer to hold what the exchange sent.
-/
namespace MdInfoSet.L4.DceFeed

open MdInfoSet.L1.DceL2 MdInfoSet.L1.Lv2Quote MdInfoSet.PackedRecord
open MdInfoSet.L4.DceDepth (BestValues)
open MdInfoSet.L4.Publish
open MdInfoSet.L4.TimeStrings (text text_ends timeStrToUtcS_text)

/-! ## Messages -/

/-- The code of a contract; its field has room for a zero behind it. -/
structure Code where
  chars : Bytes
  length_le : chars.length ≤ 19
  ends : ∀ c ∈ chars, c ≠ 0

/-- One side of a level (`DepthLevel`); a price is the bits of a `double`. -/
structure Level where
  price : UInt64
  qty : UInt32
  impQty : UInt32

structure Best where
  code : Code
  time : DayTime
  lastPrice : UInt64
  high : UInt64
  low : UInt64
  volume : UInt32
  turnOver : UInt64
  preOpenInterest : UInt32
  openInterest : UInt32
  upper : UInt64
  lower : UInt64
  preSettle : UInt64
  preClose : UInt64
  bid : Level
  ask : Level
  open' : UInt64

structure Depth where
  code : Code
  time : DayTime
  bid : Fin 5 → Level
  ask : Fin 5 → Level

/-! ## On the wire -/

/-- The fields both messages begin with, up to `res_3`. -/
def head (code : Code) (time : DayTime) (other : Mem) : List Bytes :=
  [other.slice 0 38, code.chars ++ 0 :: other.slice 39 (19 - code.chars.length), other.slice 58 123, text time ++ [0],
    other.slice 194 12]

def Level.fields (l : Level) : List Bytes := [le 8 l.price.toNat, le 4 l.qty.toNat, le 4 l.impQty.toNat]

def Best.fields (q : Best) (other : Mem) : List Bytes :=
  head q.code q.time other ++
    [le 8 q.lastPrice.toNat, le 8 q.high.toNat, le 8 q.low.toNat, other.slice 230 4, le 4 q.volume.toNat,
      le 8 q.turnOver.toNat, le 4 q.preOpenInterest.toNat, le 4 q.openInterest.toNat, other.slice 254 28,
      le 8 q.upper.toNat, le 8 q.lower.toNat, le 8 q.preSettle.toNat, le 8 q.preClose.toNat] ++
    q.bid.fields ++ q.ask.fields ++ [other.slice 346 8, le 8 q.open'.toNat, other.slice 362 8]

def Depth.fields (q : Depth) (other : Mem) : List Bytes :=
  head q.code q.time other ++
    [q.bid 0, q.bid 1, q.bid 2, q.bid 3, q.bid 4, q.ask 0, q.ask 1, q.ask 2, q.ask 3, q.ask 4].flatMap Level.fields

def Best.encode (q : Best) (other : Mem) : Bytes := (q.fields other).flatten
def Depth.encode (q : Depth) (other : Mem) : Bytes := (q.fields other).flatten

/-- The lengths of the fields. -/
def Best.lens : List Nat :=
  [38, 20, 123, 13, 12, 8, 8, 8, 4, 4, 8, 4, 4, 28, 8, 8, 8, 8, 8, 4, 4, 8, 4, 4, 8, 8, 8]

def Depth.lens : List Nat :=
  [38, 20, 123, 13, 12, 8, 4, 4, 8, 4, 4, 8, 4, 4, 8, 4, 4, 8, 4, 4, 8, 4, 4, 8, 4, 4, 8, 4, 4, 8, 4, 4, 8, 4, 4]

theorem text_length (t : DayTime) : (text t).length = 12 := rfl

theorem head_lens (code : Code) (time : DayTime) (other : Mem) :
    (head code time other).map List.length = [38, 20, 123, 13, 12] := by
  have hcode := code.length_le
  simp [head, text_length]
  omega

theorem Level.fields_lens (l : Level) : l.fields.map List.length = [8, 4, 4] := by simp [Level.fields]

theorem Best.fields_lens (q : Best) (other : Mem) : (q.fields other).map List.length = Best.lens := by
  simp [Best.fields, head_lens, Level.fields_lens, Best.lens]

theorem Depth.fields_lens (q : Depth) (other : Mem) : (q.fields other).map List.length = Depth.lens := by
  simp [Depth.fields, head_lens, Level.fields_lens, Depth.lens]

@[simp] theorem Best.encode_length (q : Best) (other : Mem) : (q.encode other).length = 370 := by
  rw [Best.encode, List.length_flatten, Best.fields_lens]
  rfl

@[simp] theorem Depth.encode_length (q : Depth) (other : Mem) : (q.encode other).length = 366 := by
  rw [Depth.encode, List.length_flatten, Depth.fields_lens]
  rfl

/-! ## Reading them back -/

/-- The best quote as the plugin sees it. -/
def Best.msg (q : Best) : DceL2_370 where
  code := q.code.chars
  extime := text q.time
  lastPrice := Float.ofBits q.lastPrice
  high := Float.ofBits q.high
  low := Float.ofBits q.low
  volume := q.volume
  turnOver := Float.ofBits q.turnOver
  preOpenInterest := q.preOpenInterest
  openInterest := q.openInterest
  upper := Float.ofBits q.upper
  lower := Float.ofBits q.lower
  preSettle := Float.ofBits q.preSettle
  preClose := Float.ofBits q.preClose
  bp1 := Float.ofBits q.bid.price
  bv1 := q.bid.qty
  ap1 := Float.ofBits q.ask.price
  av1 := q.ask.qty
  open' := Float.ofBits q.open'

def Level.msg (l : Level) : DepthLevel := ⟨Float.ofBits l.price, l.qty⟩

def Depth.msg (q : Depth) : DceL2_366 where
  code := q.code.chars
  extime := text q.time
  bid := fun i => (q.bid i).msg
  ask := fun i => (q.ask i).msg

/-- **Round trip**, best quote. -/
theorem Best.ofBytes_encode (q : Best) (other : Mem) : DceL2_370.ofBytes (q.encode other) = q.msg := by
  have h : (Mem.ofBytes (q.encode other)).Starts (q.fields other).flatten := Mem.starts_ofBytes _
  have hlens := q.fields_lens other
  have hf64 (off i : Nat) {v : UInt64} (hv : (q.fields other)[i]? = some (le 8 v.toNat))
      (hoff : (Best.lens.take i).sum = off) := f64_at h hlens hv hoff
  have huint32 (off i : Nat) {v : UInt32} (hv : (q.fields other)[i]? = some (le 4 v.toNat))
      (hoff : (Best.lens.take i).sum = off) := uint32_at h hlens hv hoff
  have hcode : cString (q.encode other) 38 = q.code.chars := cString_at (i := 1) hlens rfl q.code.ends rfl
  have htime : cString (q.encode other) 181 = text q.time := cString_at (i := 3) hlens rfl (text_ends q.time) rfl
  simp only [DceL2_370.ofBytes, Best.msg, hcode, htime, hf64 206 5 rfl rfl, hf64 214 6 rfl rfl, hf64 222 7 rfl rfl,
    huint32 234 9 rfl rfl, hf64 238 10 rfl rfl, huint32 246 11 rfl rfl, huint32 250 12 rfl rfl, hf64 282 14 rfl rfl,
    hf64 290 15 rfl rfl, hf64 298 16 rfl rfl, hf64 306 17 rfl rfl, hf64 314 18 rfl rfl, huint32 322 19 rfl rfl,
    hf64 330 21 rfl rfl, huint32 338 22 rfl rfl, hf64 354 25 rfl rfl]

/-- **Round trip**, depth. -/
theorem Depth.ofBytes_encode (q : Depth) (other : Mem) : DceL2_366.ofBytes (q.encode other) = q.msg := by
  have h : (Mem.ofBytes (q.encode other)).Starts (q.fields other).flatten := Mem.starts_ofBytes _
  have hlens := q.fields_lens other
  have hlevel (i : Nat) {off : Nat} {l : Level} (hp : (q.fields other)[i]? = some (le 8 l.price.toNat))
      (hq : (q.fields other)[i + 1]? = some (le 4 l.qty.toNat)) (hoff : (Depth.lens.take i).sum = off)
      (hoff' : (Depth.lens.take (i + 1)).sum = off + 8) :
      DepthLevel.ofMem (Mem.ofBytes (q.encode other)) off = l.msg := by
    rw [DepthLevel.ofMem, Level.msg, f64_at h hlens hp hoff, uint32_at h hlens hq hoff']
  have hcode : cString (q.encode other) 38 = q.code.chars := cString_at (i := 1) hlens rfl q.code.ends rfl
  have htime : cString (q.encode other) 181 = text q.time := cString_at (i := 3) hlens rfl (text_ends q.time) rfl
  have hbid (i : Fin 5) : DepthLevel.ofMem (Mem.ofBytes (q.encode other)) (206 + 16 * i) = (q.bid i).msg := by
    match i with
    | 0 => exact hlevel 5 rfl rfl rfl rfl
    | 1 => exact hlevel 8 rfl rfl rfl rfl
    | 2 => exact hlevel 11 rfl rfl rfl rfl
    | 3 => exact hlevel 14 rfl rfl rfl rfl
    | 4 => exact hlevel 17 rfl rfl rfl rfl
  have hask (i : Fin 5) : DepthLevel.ofMem (Mem.ofBytes (q.encode other)) (286 + 16 * i) = (q.ask i).msg := by
    match i with
    | 0 => exact hlevel 20 rfl rfl rfl rfl
    | 1 => exact hlevel 23 rfl rfl rfl rfl
    | 2 => exact hlevel 26 rfl rfl rfl rfl
    | 3 => exact hlevel 29 rfl rfl rfl rfl
    | 4 => exact hlevel 32 rfl rfl rfl rfl
  simp only [DceL2_366.ofBytes, Depth.msg, hcode, htime, hbid, hask]

/-! ## What is to be published -/

/-- A price of the day; there is none before the first trade. -/
def dayPrice (v : BestValues) (price : Float) : Float := convertPriceIfVolumeZero price v.volume

/-- The price of a level. -/
def Level.published (l : Level) : Float := convertPriceIfVolumeZero (Float.ofBits l.price) l.qty

/-- The values of a best quote that depth messages are joined with. -/
def Best.values (q : Best) : BestValues where
  open' := Float.ofBits q.open'
  high := Float.ofBits q.high
  low := Float.ofBits q.low
  lastPrice := Float.ofBits q.lastPrice
  volume := q.volume
  turnOver := Float.ofBits q.turnOver
  openInterest := q.openInterest
  upper := Float.ofBits q.upper
  lower := Float.ofBits q.lower
  preSettle := Float.ofBits q.preSettle
  preClose := Float.ofBits q.preClose
  preOpenInterest := q.preOpenInterest

/-- A record with these values. -/
def recordOf (reset : MarketData) (localTimeNs0 : UInt64) (code : Code) (time : DayTime) (v : BestValues) :
    MarketData :=
  { reset with
    localTimestamp := localTimeNs0
    instrumentId := code.chars
    exchangeId := fbExchangeDce
    updateSec := Int32.ofNat time.seconds
    updateMsec := Int32.ofNat time.milli
    open' := dayPrice v v.open'
    close := dayPrice v v.lastPrice
    upperLimitPrice := v.upper
    downLimitPrice := v.lower
    preSettlement := v.preSettle
    preClose := v.preClose
    preOpenInterest := Float.ofNat v.preOpenInterest.toNat
    highPrice := dayPrice v v.high
    lowPrice := dayPrice v v.low
    lastPrice := dayPrice v v.lastPrice
    volume := v.volume.toInt32
    turnOver := v.turnOver
    openInterest := Float.ofNat v.openInterest.toNat }

/-- A best quote has a book of one level. -/
def Best.record (reset : MarketData) (localTimeNs0 : UInt64) (q : Best) : MarketData :=
  { recordOf reset localTimeNs0 q.code q.time q.values with
    maxDepth := 1
    iopv := iopvTagLv1
    askPrice := Function.update reset.askPrice 0 q.ask.published
    askVolume := Function.update reset.askVolume 0 q.ask.qty.toInt32
    bidPrice := Function.update reset.bidPrice 0 q.bid.published
    bidVolume := Function.update reset.bidVolume 0 q.bid.qty.toInt32 }

/-- A depth message has five. -/
def Depth.record (reset : MarketData) (localTimeNs0 : UInt64) (v : BestValues) (q : Depth) : MarketData :=
  { recordOf reset localTimeNs0 q.code q.time v with
    maxDepth := 5
    iopv := iopvTagLv2
    askPrice := fun i => (q.ask i).published
    askVolume := fun i => (q.ask i).qty.toInt32
    bidPrice := fun i => (q.bid i).published
    bidVolume := fun i => (q.bid i).qty.toInt32 }

end MdInfoSet.L4.DceFeed
