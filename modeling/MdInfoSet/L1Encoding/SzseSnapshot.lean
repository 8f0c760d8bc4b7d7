import MdInfoSet.Core.Mem

/-!
# The SZSE snapshot message (300111)

`src/szse_etf_mdsz/mdsz-exanic/public/MdszRecv.h`: packed records in network byte
order. A message starts with a `SzseMsgHead`; a 300111 message is a
`SzseSnapShot` followed by `NoMDEntries` entries of variable length. `ofMem d off`
holds the fields `OnData` reads of the record at `off`.
-/
namespace MdInfoSet.L1.SzseSnapshot

/-- `MyTransU16`, `MyTransU32` and `MyTransU64` of what is read at `off`
(src/szse_etf_mdsz/src/qx_sz_md_etf_option.cpp:58-70): the bytes in network order. -/
def myTransU16 (d : Mem) (off : Nat) : Nat := 2 ^ 8 * (d off).toNat + (d (off + 1)).toNat

def myTransU32 (d : Mem) (off : Nat) : Nat := 2 ^ 16 * myTransU16 d off + myTransU16 d (off + 2)

def myTransU64 (d : Mem) (off : Nat) : UInt64 :=
  UInt64.ofNat (2 ^ 32 * myTransU32 d off + myTransU32 d (off + 4))

structure SzseMsgHead where
  msgType : Nat
  msgLen : Nat

def SzseMsgHead.ofMem (d : Mem) (off : Nat) : SzseMsgHead where
  msgType := myTransU32 d off
  msgLen := myTransU32 d (off + 4)

structure SzseSnapShot where
  origTime : UInt64
  channelNo : Nat
  securityId : Bytes
  prevClosePx : UInt64
  totalVolumeTrade : UInt64
  totalValueTrade : UInt64
  noMdEntries : Nat

/-- `sizeof(SzseSnapShot)` -/
def szseSnapShotSize : Nat := 77

def SzseSnapShot.ofMem (d : Mem) (off : Nat) : SzseSnapShot where
  origTime := myTransU64 d (off + 8)
  channelNo := myTransU16 d (off + 16)
  securityId := d.slice (off + 21) 8
  prevClosePx := myTransU64 d (off + 41)
  totalVolumeTrade := myTransU64 d (off + 57)
  totalValueTrade := myTransU64 d (off + 65)
  noMdEntries := myTransU32 d (off + 73)

/-- `MdEntryType` is the one field compared without a conversion. -/
structure SzseMDEntry300111 where
  mdEntryType : Nat
  mdEntryPx : UInt64
  mdEntrySize : UInt64
  mdPriceLevel : Nat
  noOrders : Nat

/-- `sizeof(SzseMDEntry_300111)` -/
def szseMDEntry300111Size : Nat := 32

def SzseMDEntry300111.ofMem (d : Mem) (off : Nat) : SzseMDEntry300111 where
  mdEntryType := d.u16 off
  mdEntryPx := myTransU64 d (off + 2)
  mdEntrySize := myTransU64 d (off + 10)
  mdPriceLevel := myTransU16 d (off + 18)
  noOrders := myTransU32 d (off + 28)

end MdInfoSet.L1.SzseSnapshot
