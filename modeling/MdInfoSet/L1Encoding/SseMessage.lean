import MdInfoSet.Core.Mem

/-!
# The SSE snapshot message

`SseMsg` of src/sse_etf_mdsh_exanic/src/qx_sh_md_etf_exanic.h:35-55, a packed record of
little-endian numbers. `ofMem d off` holds what `OnData` reads of the record at `off`.
-/
namespace MdInfoSet.L1.SseMessage

/-- `mdType` is what the `memcpy` from the second byte of `mdStreamId` gives. -/
structure SseMsg where
  length : UInt8
  mdType : Nat
  timestamp : UInt32
  securityId : Bytes
  totalValue : UInt64
  totalVolume : UInt64
  lastPrice : UInt64
  openInterest : UInt64
  bidPrice : Fin 5 → UInt64
  bidVolume : Fin 5 → UInt32
  askPrice : Fin 5 → UInt64
  askVolume : Fin 5 → UInt32

/-- `sizeof(SseMsg)` -/
def sseMsgSize : Nat := 180

def SseMsg.ofMem (d : Mem) (off : Nat) : SseMsg where
  length := d (off + 1)
  mdType := d.u32 (off + 4)
  timestamp := UInt32.ofNat (d.u32 (off + 16))
  securityId := d.slice (off + 20) 8
  totalValue := UInt64.ofNat (d.u64 (off + 28))
  totalVolume := UInt64.ofNat (d.u64 (off + 36))
  lastPrice := UInt64.ofNat (d.u64 (off + 44))
  openInterest := UInt64.ofNat (d.u64 (off + 52))
  bidPrice i := UInt64.ofNat (d.u64 (off + 60 + 8 * i))
  bidVolume i := UInt32.ofNat (d.u32 (off + 100 + 4 * i))
  askPrice i := UInt64.ofNat (d.u64 (off + 120 + 8 * i))
  askVolume i := UInt32.ofNat (d.u32 (off + 160 + 4 * i))

end MdInfoSet.L1.SseMessage
