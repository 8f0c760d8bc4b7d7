import MdInfoSet.Core.PackedRecord
import MdInfoSet.L1Encoding.Lv2Quote

/-!
# DCE Level-2 messages

The two ways a best quote or a depth message reaches the plugin: as a decrypted packet
of 370 or 366 bytes (src/gz_dce_udp/src/gz_dce_md.h:117-197) and as the records the
vendor's library hands to a callback
(src/gz_dce_udp/dependency/dcel2decode_mds.h:36-121). The packet stands at the beginning
of a zeroed buffer, so that a C string in it always ends. Strings are held without
their terminating zero.

`DceL2_370.best`, `DceL2_366.deep` and the two `contractInfo` are the library's records
with the contents of a packet.
-/
namespace MdInfoSet.L1.DceL2

open MdInfoSet.L1.Lv2Quote MdInfoSet.PackedRecord

/-- A C string in the buffer. -/
def cString (buffer : Bytes) (off : Nat) : Bytes := (buffer.drop off).takeWhile (· ≠ 0)

/-- A `uint32_t` field. -/
def uint32 (d : Mem) (off : Nat) : UInt32 := UInt32.ofNat (d.u32 off)

/-- mirrors src/gz_dce_udp/src/gz_dce_md.cpp:44-65
The body is that of src/qx_commom/common.h:852-873. -/
def dceTimeStrToUtcS (timeStr : Bytes) : Option UInt64 := timeStrToUtcS (timeStr ++ [0])

/-! ## Fields of a packed record -/

section Fields

variable {fs : List Bytes} {lens : List Nat} {i off : Nat}

theorem f64_at {d : Mem} {v : UInt64} (h : d.Starts fs.flatten) (hlens : fs.map List.length = lens)
    (hf : fs[i]? = some (le 8 v.toNat)) (hoff : (lens.take i).sum = off) : f64 d off = Float.ofBits v := by
  have hlt := v.toNat_lt
  have hfield := field_at h hlens hf
  rw [hoff, le_length] at hfield
  rw [f64, u64_of_le hfield, Nat.mod_eq_of_lt hlt, UInt64.ofNat_toNat]

theorem uint32_at {d : Mem} {v : UInt32} (h : d.Starts fs.flatten) (hlens : fs.map List.length = lens)
    (hf : fs[i]? = some (le 4 v.toNat)) (hoff : (lens.take i).sum = off) : uint32 d off = v := by
  have hlt := v.toNat_lt
  have hfield := field_at h hlens hf
  rw [hoff, le_length] at hfield
  rw [uint32, u32_of_le hfield, Nat.mod_eq_of_lt hlt, UInt32.ofNat_toNat]

/-- A C string ends within its field. -/
theorem cString_at {s behind : Bytes} (hlens : fs.map List.length = lens) (hf : fs[i]? = some (s ++ 0 :: behind))
    (hs : ∀ c ∈ s, c ≠ 0) (hoff : (lens.take i).sum = off) : cString fs.flatten off = s := by
  obtain ⟨rest, hrest⟩ := drop_field hlens hf
  rw [cString, ← hoff, hrest, List.append_assoc, List.takeWhile_append_of_pos (by simpa using hs), List.cons_append]
  simp

end Fields

/-! ## Packets -/

structure DceL2_370 where
  code : Bytes
  extime : Bytes
  lastPrice : Float
  high : Float
  low : Float
  volume : UInt32
  turnOver : Float
  preOpenInterest : UInt32
  openInterest : UInt32
  upper : Float
  lower : Float
  preSettle : Float
  preClose : Float
  bp1 : Float
  bv1 : UInt32
  ap1 : Float
  av1 : UInt32
  open' : Float

/-- `(DceL2_370 *)buffer` -/
def DceL2_370.ofBytes (buffer : Bytes) : DceL2_370 :=
  let d := Mem.ofBytes buffer
  { code := cString buffer 38
    extime := cString buffer 181
    lastPrice := f64 d 206
    high := f64 d 214
    low := f64 d 222
    volume := uint32 d 234
    turnOver := f64 d 238
    preOpenInterest := uint32 d 246
    openInterest := uint32 d 250
    upper := f64 d 282
    lower := f64 d 290
    preSettle := f64 d 298
    preClose := f64 d 306
    bp1 := f64 d 314
    bv1 := uint32 d 322
    ap1 := f64 d 330
    av1 := uint32 d 338
    open' := f64 d 354 }

structure DepthLevel where
  price : Float
  qty : UInt32

structure DceL2_366 where
  code : Bytes
  extime : Bytes
  bid : Fin 5 → DepthLevel
  ask : Fin 5 → DepthLevel

def DepthLevel.ofMem (d : Mem) (off : Nat) : DepthLevel := ⟨f64 d off, uint32 d (off + 8)⟩

/-- `(DceL2_366 *)buffer` -/
def DceL2_366.ofBytes (buffer : Bytes) : DceL2_366 :=
  let d := Mem.ofBytes buffer
  { code := cString buffer 38
    extime := cString buffer 181
    bid := fun i => DepthLevel.ofMem d (206 + 16 * i)
    ask := fun i => DepthLevel.ofMem d (286 + 16 * i) }

/-! ## The library's records -/

structure MdsContractInfo where
  contractId : Bytes
  genTime : Bytes

structure MdsBest where
  lastPrice : Float
  highPrice : Float
  lowPrice : Float
  matchTotQty : UInt32
  turnover : Float
  lastOpenInterest : UInt32
  openInterest : UInt32
  riseLimit : Float
  fallLimit : Float
  lastClearPrice : Float
  lastClose : Float
  buyPriceOne : Float
  buyQtyOne : UInt32
  sellPriceOne : Float
  sellQtyOne : UInt32
  openPrice : Float

/-- `BuyPriceOne` to `BuyPriceFive` and the other series as functions of the level. -/
structure MdsDeep where
  buyPrice : Fin 5 → Float
  buyQty : Fin 5 → UInt32
  sellPrice : Fin 5 → Float
  sellQty : Fin 5 → UInt32

def DceL2_370.contractInfo (m : DceL2_370) : MdsContractInfo := ⟨m.code, m.extime⟩

def DceL2_370.best (m : DceL2_370) : MdsBest where
  lastPrice := m.lastPrice
  highPrice := m.high
  lowPrice := m.low
  matchTotQty := m.volume
  turnover := m.turnOver
  lastOpenInterest := m.preOpenInterest
  openInterest := m.openInterest
  riseLimit := m.upper
  fallLimit := m.lower
  lastClearPrice := m.preSettle
  lastClose := m.preClose
  buyPriceOne := m.bp1
  buyQtyOne := m.bv1
  sellPriceOne := m.ap1
  sellQtyOne := m.av1
  openPrice := m.open'

def DceL2_366.contractInfo (m : DceL2_366) : MdsContractInfo := ⟨m.code, m.extime⟩

def DceL2_366.deep (m : DceL2_366) : MdsDeep where
  buyPrice := fun i => (m.bid i).price
  buyQty := fun i => (m.bid i).qty
  sellPrice := fun i => (m.ask i).price
  sellQty := fun i => (m.ask i).qty

end MdInfoSet.L1.DceL2
