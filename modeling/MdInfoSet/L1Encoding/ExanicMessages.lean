import MdInfoSet.L1Encoding.Lv2Quote

/-!
# The messages of `gfex_md_exanic`

src/gfex_md_exanic/src/exanic_md.h:51-160, packed records. `Lv2_OB_Quote` has the
layout it has in `dz_gfex_md`; two more of its fields are read here. `MarketDataField`
is the Level-1 record.
-/
namespace MdInfoSet.L1.ExanicMessages

open MdInfoSet.L1.Lv2Quote

structure Lv2Message extends Lv2ObQuote where
  lastOpenInterest : Int32
  lastClear : Float

/-- `(Lv2_OB_Quote *)(databuffer + offset)` -/
def Lv2Message.ofMem (d : Mem) : Lv2Message where
  toLv2ObQuote := .ofMem d
  lastOpenInterest := int32 d 128
  lastClear := f64 d 180

/-- `sizeof(MarketDataField)` -/
def marketDataFieldSize : Nat := 135

/-- `instrumentId` is what a C string function sees from the field on, up to the end of
the record. -/
structure MarketDataField where
  updateTime : Int32
  instrumentId : Bytes
  latestPrice : Float
  matchAmount : Int32
  positionAmount : Int32
  buyPrice1 : Float
  sellPrice1 : Float
  buyAmount1 : Int32
  sellAmount1 : Int32
  macthMoney : Float

/-- `(MarketDataField *)data` -/
def MarketDataField.ofMem (d : Mem) : MarketDataField where
  updateTime := int32 d 5
  instrumentId := d.slice 12 (marketDataFieldSize - 12)
  latestPrice := f64 d 44
  matchAmount := int32 d 53
  positionAmount := int32 d 58
  buyPrice1 := f64 d 81
  sellPrice1 := f64 d 90
  buyAmount1 := int32 d 99
  sellAmount1 := int32 d 104
  macthMoney := f64 d 109

end MdInfoSet.L1.ExanicMessages
