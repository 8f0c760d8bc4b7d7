import Mathlib.Data.Fintype.Basic
import MdInfoSet.Core.Mem

/-!
# The record the plugins publish

Every plugin fills one `market_data_entity` of the febao API and passes it to
`on_msg` (febao_md_proxy_api/fb_md_plugin_api/include/fb_md_entity.h:30-97). The
entity is library code: what `reset_entity` leaves in it is the parameter `reset`
of the functions that publish, the setters store their argument.

`convertPriceIfZero` and `convertPriceIfVolumeZero` are the two conversions every
price passes on its way out (src/qx_commom/common.h:61-72).
-/
namespace MdInfoSet.L4.Publish

/-- The fields of `market_data_entity` the plugins set. -/
structure MarketData where
  localTimestamp : UInt64
  maxDepth : UInt8
  instrumentId : Bytes
  exchangeId : UInt8
  updateSec : Int32
  updateMsec : Int32
  open' : Float
  close : Float
  highPrice : Float
  lowPrice : Float
  lastPrice : Float
  upperLimitPrice : Float
  downLimitPrice : Float
  preOpenInterest : Float
  preSettlement : Float
  preClose : Float
  volume : Int32
  turnOver : Float
  openInterest : Float
  iopv : Float
  bidPrice : Fin 5 → Float
  bidVolume : Fin 5 → Int32
  askPrice : Fin 5 → Float
  askVolume : Fin 5 → Int32
  deriving DecidableEq

/-- A zeroed entity. -/
def MarketData.zero : MarketData :=
  ⟨0, 0, [], 0, 0, 0, 0, 0, 0, 0, 0, 0, 0, 0, 0, 0, 0, 0, 0, 0, fun _ => 0, fun _ => 0, fun _ => 0, fun _ => 0⟩

/-- `FB_EXCHANGE_DCE`, `FB_EXCHANGE_SZSE` and `FB_EXCHANGE_GFEX` (fb_md_type.h:25-34) -/
def fbExchangeDce : UInt8 := 0x32
def fbExchangeSzse : UInt8 := 0x35
def fbExchangeGfex : UInt8 := 0x37

/-- `IOPV_TAG_LV1` and `IOPV_TAG_LV2`, the marks the plugins put into `iopv`. -/
def iopvTagLv1 : Float := 100000
def iopvTagLv2 : Float := 200000

/-- `DBL_MAX`, the value that stands for no price, and
`std::numeric_limits<double>::lowest()`. -/
def dblMax : Float := Float.ofBits 0x7fefffffffffffff
def dblLowest : Float := Float.ofBits 0xffefffffffffffff

/-- mirrors src/qx_commom/common.h:61-64 -/
def convertPriceIfZero (price : Float) : Float :=
  if (price == 0) = true then dblMax else price

/-- A price `convertPriceIfVolumeZero` lets through: false for a NaN and both
infinities. -/
def HasValue (price : Float) : Prop := price > dblLowest ∧ price < dblMax

instance (price : Float) : Decidable (HasValue price) := by unfold HasValue; infer_instance

/-- mirrors src/qx_commom/common.h:67-72 -/
def convertPriceIfVolumeZero (price : Float) (volume : UInt32) : Float :=
  if volume > 0 ∧ HasValue price then price else dblMax

@[simp] theorem convertPriceIfVolumeZero_zero (price : Float) :
    convertPriceIfVolumeZero price 0 = dblMax :=
  if_neg fun h => absurd h.1 (UInt32.lt_irrefl 0)

/-- The conversion keeps the price or publishes none. -/
theorem convertPriceIfVolumeZero_cases (price : Float) (volume : UInt32) :
    convertPriceIfVolumeZero price volume = dblMax ∨
      HasValue price ∧ convertPriceIfVolumeZero price volume = price := by
  unfold convertPriceIfVolumeZero
  split
  · rename_i h
    exact .inr ⟨h.2, rfl⟩
  · exact .inl rfl

/-- Only a volume of 0 is published as 0. -/
theorem toInt32_eq_zero {volume : UInt32} : volume.toInt32 = 0 ↔ volume = 0 := by
  constructor
  · intro h
    have : volume.toInt32.toUInt32 = 0 := by rw [h]; rfl
    simpa using this
  · rintro rfl
    rfl

/-- `set_update_sec(extime/1000)` and `set_update_msec(extime%1000)` -/
def updateSec (extime : UInt64) : Int32 := (extime / 1000).toUInt32.toInt32
def updateMsec (extime : UInt64) : Int32 := (extime % 1000).toUInt32.toInt32

theorem updateSec_eq (extime : UInt64) : updateSec extime = Int32.ofNat (extime.toNat / 1000) := by
  have hdiv : extime.toNat / 1000 = (extime / 1000).toNat := rfl
  rw [updateSec, hdiv]
  rfl

theorem updateMsec_eq (extime : UInt64) : updateMsec extime = Int32.ofNat (extime.toNat % 1000) := by
  have hmod : extime.toNat % 1000 = (extime % 1000).toNat := rfl
  rw [updateMsec, hmod]
  rfl

end MdInfoSet.L4.Publish
