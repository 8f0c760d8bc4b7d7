import MdInfoSet.L1Encoding.Lv2Quote

/-!
# The accelerated SZSE messages

`src/qx_index_etf_md/zqfpga_v2_exanic/include/acc_md.h` and `tszch_gtjamch.h`: packed
records behind a `StaticAccMD`, which has the type first and the record at offset 8.
`ofMem d off` holds the fields `GetInstrumentInfo` reads of the record at `off`, those of
the best level.

A security id has 8 bytes and no terminating zero. The option record is read by its
length, the LF record as a C string, which goes on behind the field.
-/
namespace MdInfoSet.L1.AccMd

/-- `MD_TYPE_SZ_LF` and `MD_TYPE_SZ_300111_L1_OPTION` -/
def mdTypeSzLf : Nat := 0x00020008
def mdTypeSz300111L1Option : Nat := 0x00020007

/-- `StaticAccMD::data` -/
def accDataOffset : Nat := 8

/-- mirrors src/qx_index_etf_md/zqfpga_v2_exanic/include/acc_md.h:155-179 -/
structure OptionSnapShotL1 where
  securityId : Bytes
  askPrice : UInt64
  askVol : UInt64
  bidPrice : UInt64
  bidVol : UInt64
  deriving DecidableEq

def OptionSnapShotL1.ofMem (d : Mem) (off : Nat) : OptionSnapShotL1 where
  securityId := d.slice off 8
  askPrice := UInt64.ofNat (d.u64 (off + 56))
  askVol := UInt64.ofNat (d.u64 (off + 96))
  bidPrice := UInt64.ofNat (d.u64 (off + 136))
  bidVol := UInt64.ofNat (d.u64 (off + 176))

/-- mirrors src/qx_index_etf_md/zqfpga_v2_exanic/include/tszch_gtjamch.h:25-41
`securityId` is what a C string function sees from the field on. -/
structure MarketDataLf where
  securityId : Bytes
  uAskPrice : UInt32
  uAskVol : UInt32
  uBidPrice : UInt32
  uBidVol : UInt32
  deriving DecidableEq

/-- The record at `off` of a buffer of `size` bytes. -/
def MarketDataLf.ofMem (d : Mem) (off size : Nat) : MarketDataLf where
  securityId := d.slice off (size - off)
  uAskPrice := UInt32.ofNat (d.u32 (off + 32))
  uAskVol := UInt32.ofNat (d.u32 (off + 72))
  uBidPrice := UInt32.ofNat (d.u32 (off + 112))
  uBidVol := UInt32.ofNat (d.u32 (off + 152))

end MdInfoSet.L1.AccMd
