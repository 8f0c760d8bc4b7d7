import MdInfoSet.L1Encoding.Lv2Quote

/-!
# The packets of `zx_gfex_md`

src/zx_gfex_md/src/zx_gfex_md.h:203-297, packed records the receiver casts the
packet to: a `Zx_PacketHead`, then for each message a `Zx_MsgHead` and `iMsgSize`
bytes. `ZxBestDeep` holds the fields `DecodeMsg` reads.

`Message` is a complete message of one of the six declared types; `encode` lays a
list of them out, and `Message.head_of_starts` says what the receiver reads at the
beginning of one.
-/
namespace MdInfoSet.L1.ZxMessage

open MdInfoSet.L1.Lv2Quote

/-- `sizeof(Zx_PacketHead)`, `sizeof(Zx_MsgHead)` and `sizeof(Zx_BestDeep)` -/
def zxPacketHeadSize : Nat := 6
def zxMsgHeadSize : Nat := 8
def zxBestDeepSize : Nat := 331

/-- `MsgZx_BestDeep`; the types declared run up to `MsgZx_MatchPriceQty`. -/
def msgZxBestDeep : Nat := 1
def msgZxMatchPriceQty : Nat := 6

structure ZxMsgHead where
  iMsgSize : Nat
  iMsgType : Nat

def ZxMsgHead.ofMem (d : Mem) (off : Nat) : ZxMsgHead where
  iMsgSize := d.u16 (off + 4)
  iMsgType := d.u16 (off + 6)

/-- A book level; `iBidImplyVolume` and `iAskImplyVolume` are not read. -/
structure ZxLine where
  price : Float
  volume : Int32

def ZxLine.ofMem (d : Mem) (off : Nat) : ZxLine := ⟨f64 d off, int32 d (off + 8)⟩

/-- `arrGenTime` is the memory the pointer to the field shows. -/
structure ZxBestDeep where
  arrInstrument : Bytes
  arrGenTime : Mem
  dLastPrice : Float
  dHighPrice : Float
  dLowPrice : Float
  iMatchTotQty : Int32
  dTurnover : Float
  iInitOpenInterest : Int32
  iOpenInterest : Int32
  dLastClearPrice : Float
  dClosePrice : Float
  dOpenPrice : Float
  dRiseLimit : Float
  dFallLimit : Float
  bid : Fin 5 → ZxLine
  ask : Fin 5 → ZxLine

/-- The record of the given bytes. `arrInstrument` is what a C string function sees
from the field on, up to the end of the record. -/
def ZxBestDeep.ofBytes (bs : Bytes) : ZxBestDeep :=
  let d := Mem.ofBytes bs
  { arrInstrument := d.slice 4 (zxBestDeepSize - 4)
    arrGenTime := d.shift 27
    dLastPrice := f64 d 39
    dHighPrice := f64 d 47
    dLowPrice := f64 d 55
    iMatchTotQty := int32 d 67
    dTurnover := f64 d 71
    iInitOpenInterest := int32 d 79
    iOpenInterest := int32 d 83
    dLastClearPrice := f64 d 99
    dClosePrice := f64 d 107
    dOpenPrice := f64 d 123
    dRiseLimit := f64 d 147
    dFallLimit := f64 d 155
    bid := fun i => ZxLine.ofMem d (171 + 16 * i)
    ask := fun i => ZxLine.ofMem d (251 + 16 * i) }

/-- `(Zx_BestDeep *)(data + off)` -/
def ZxBestDeep.ofMem (d : Mem) (off : Nat) : ZxBestDeep := .ofBytes (d.slice off zxBestDeepSize)

/-! ## Complete messages -/

structure Message where
  iSequence : Bytes
  iMsgType : Nat
  payload : Bytes
  sequence_length : iSequence.length = 4
  declared : msgZxBestDeep ≤ iMsgType ∧ iMsgType ≤ msgZxMatchPriceQty
  size : payload.length < 2 ^ 16
  full : iMsgType = msgZxBestDeep → payload.length = zxBestDeepSize

/-- A `uint16_t`. -/
def le16 (n : Nat) : Bytes := [UInt8.ofNat n, UInt8.ofNat (n / 2 ^ 8)]

/-- The bytes of a message. -/
def Message.bytes (m : Message) : Bytes :=
  m.iSequence ++ (le16 m.payload.length ++ (le16 m.iMsgType ++ m.payload))

/-- The messages behind the head of a packet. -/
def encode (ms : List Message) : Bytes := (ms.map Message.bytes).flatten

theorem Message.bytes_length (m : Message) : m.bytes.length = zxMsgHeadSize + m.payload.length := by
  simp only [Message.bytes, le16, List.length_append, List.length_cons, List.length_nil, m.sequence_length,
    zxMsgHeadSize]
  omega

theorem u16_of_starts {d : Mem} {off n : Nat} {bs : Bytes} (hn : n < 2 ^ 16)
    (h : (d.shift off).Starts (le16 n ++ bs)) : d.u16 off = n := by
  have h0 : d off = UInt8.ofNat n := h 0 (by simp [le16])
  have h1 : d (off + 1) = UInt8.ofNat (n / 2 ^ 8) := h 1 (by simp [le16])
  unfold Mem.u16
  rw [h0, h1]
  simp only [UInt8.toNat_ofNat']
  omega

/-- What stands at the beginning of a message. -/
theorem Message.head_of_starts {d : Mem} {off : Nat} {m : Message} (h : (d.shift off).Starts m.bytes) :
    ZxMsgHead.ofMem d off = ⟨m.payload.length, m.iMsgType⟩ ∧
      d.slice (off + zxMsgHeadSize) m.payload.length = m.payload := by
  have hsize := h.right
  rw [m.sequence_length, Mem.shift_shift] at hsize
  have htype := hsize.right
  rw [show (le16 m.payload.length).length = 2 from rfl, Mem.shift_shift] at htype
  have hpay := htype.right
  rw [show (le16 m.iMsgType).length = 2 from rfl, Mem.shift_shift] at hpay
  have hlt : m.iMsgType < 2 ^ 16 := by
    have := m.declared.2
    unfold msgZxMatchPriceQty at this
    omega
  refine ⟨?_, ?_⟩
  · rw [ZxMsgHead.ofMem, u16_of_starts m.size hsize, u16_of_starts hlt htype]
  · rw [← Mem.slice_shift]
    exact hpay.slice_zero

end MdInfoSet.L1.ZxMessage
