import Mathlib.Data.Fin.VecNotation
import MdInfoSet.L1Encoding.DceL2

/-!
# The 288-byte quote of CFFEX (`CFFEXIncQuotaData`)

src/cffex_md_exanic/dependency/htf_cffex.h:13-57, a packed record the plugin casts the frame
to. Its book is not in the order of the levels: the two best prices come first, then bid 2 and
3, ask 2 and 3, and so on, each two prices with their volumes behind them.
-/
namespace MdInfoSet.L1.CffexQuote

open MdInfoSet.L1.Lv2Quote MdInfoSet.L1.DceL2

structure CffexIncQuotaData where
  instrumentId : Bytes
  updateTime : Mem
  updateMillisec : UInt32
  openPrice : Float
  highestPrice : Float
  lowestPrice : Float
  closePrice : Float
  upperlimitPrice : Float
  lowerlimitPrice : Float
  lastPrice : Float
  volume : UInt32
  turnover : Float
  openInterest : Float
  bidPrice : Fin 5 → Float
  bidVolume : Fin 5 → UInt32
  askPrice : Fin 5 → Float
  askVolume : Fin 5 → UInt32

/-- `sizeof(databuffer)`; a C string in it is read up to its end. -/
def databufferSize : Nat := 1024

/-- Where `BidPrice1`, … and `BidVolume1`, … stand. -/
def bidPriceAt : Fin 5 → Nat := ![152, 176, 184, 224, 232]
def bidVolumeAt : Fin 5 → Nat := ![168, 192, 196, 240, 244]
def askPriceAt : Fin 5 → Nat := ![160, 200, 208, 248, 256]
def askVolumeAt : Fin 5 → Nat := ![172, 216, 220, 264, 268]

/-- `(CFFEXIncQuotaDataT *)(databuffer)` -/
def CffexIncQuotaData.ofMem (d : Mem) : CffexIncQuotaData where
  instrumentId := d.slice 2 (databufferSize - 2)
  updateTime := d.shift 40
  updateMillisec := uint32 d 49
  openPrice := f64 d 56
  highestPrice := f64 d 64
  lowestPrice := f64 d 72
  closePrice := f64 d 80
  upperlimitPrice := f64 d 88
  lowerlimitPrice := f64 d 96
  lastPrice := f64 d 120
  volume := uint32 d 128
  turnover := f64 d 136
  openInterest := f64 d 144
  bidPrice := fun i => f64 d (bidPriceAt i)
  bidVolume := fun i => uint32 d (bidVolumeAt i)
  askPrice := fun i => f64 d (askPriceAt i)
  askVolume := fun i => uint32 d (askVolumeAt i)

end MdInfoSet.L1.CffexQuote
