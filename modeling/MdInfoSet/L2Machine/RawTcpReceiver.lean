import MdInfoSet.Core.Mem

/-!
# The raw TCP receiver

`RawTcpReceiver::recvLoop` (src/dz_gfex_md/src/raw_tcp_receiver.h:230-315) reads Ethernet
frames from a packet socket into a buffer of 2048 bytes and passes the payload of TCP
segments on. A frame of less than 54 bytes, the three heads without options, is left out;
the lengths the heads give are not compared with what was received.

**Exact condition** (`passes_received_iff`). The callback gets received bytes only exactly if
the frame is not handled, or the IP total length is that of the heads, so that there is no
callback, or more, and the frame has as many bytes.

**Counterexample.** 54 bytes with a total length of 100 (`passes_unreceived`).
-/
namespace MdInfoSet.L2.RawTcpReceiver

/-- `BUFFER_SIZE` -/
def bufferSize : Nat := 2048

/-- What `recv` returned: the bytes, and what the buffer holds behind them. -/
structure Received extends Seg where
  fits : bytes.length ≤ bufferSize

/-- `sizeof(ethhdr)` and `sizeof(tcpip::ip_header)` -/
def ethhdrSize : Nat := 14
def ipHeaderSize : Nat := 20

def ethPIp : Nat := 0x0800

/-- `ntohs` of a `uint16_t`. -/
def ntohs (d : Mem) (off : Nat) : Nat := 2 ^ 8 * (d off).toNat + (d (off + 1)).toNat

/-- A call of the callback. The payload is `contentLen` bytes at `offset` of the buffer;
addresses and ports are as they stand in the frame. -/
structure Call where
  offset : Nat
  contentLen : Nat
  netSrcIp : Nat
  netSrcPort : Nat
  netDstIp : Nat
  netDstPort : Nat
  deriving DecidableEq

/-! ## The heads -/

/-- `(pIpHeader->ip_version & 0x0f) << 2` -/
def ipHLen (buffer : Mem) : Nat := (buffer 14).toNat % 2 ^ 4 * 4

/-- `ntohs(pIpHeader->ip_len)` -/
def ipTotalLen (buffer : Mem) : Nat := ntohs buffer 16

/-- `(tcp->header_len >> 4) * 4`, with the TCP head behind an IP head without options. -/
def tcpHeaderLen (buffer : Mem) : Nat := (buffer (ethhdrSize + ipHeaderSize + 12)).toNat / 2 ^ 4 * 4

/-- `content_len`, a `size_t`. -/
def contentLen (buffer : Mem) : Nat :=
  (((ipTotalLen buffer : Int) - ipHeaderSize - tcpHeaderLen buffer) % 2 ^ 64).toNat

/-- The frames the loop goes on with: not too short, IPv4, TCP. -/
def Handled (r : Received) : Prop :=
  54 ≤ r.bytes.length ∧ ntohs r.mem 12 = ethPIp ∧ r.mem 23 = 6

instance (r : Received) : Decidable (Handled r) := by unfold Handled; infer_instance

/-- mirrors src/dz_gfex_md/src/raw_tcp_receiver.h:235-314
One round. `registered` says if there is a callback. -/
def recvLoop (registered : Bool) (r : Received) : Option Call :=
  if Handled r ∧ registered = true ∧ 0 < contentLen r.mem then
    some
      { offset := ethhdrSize + ipHeaderSize + tcpHeaderLen r.mem
        contentLen := contentLen r.mem
        netSrcIp := r.mem.u32 26
        netSrcPort := r.mem.u16 (ipHLen r.mem + ethhdrSize)
        netDstIp := r.mem.u32 30
        netDstPort := r.mem.u16 (ipHLen r.mem + ethhdrSize + 2) }
  else none

/-! ## What the callback gets -/

theorem tcpHeaderLen_le (buffer : Mem) : tcpHeaderLen buffer ≤ 60 := by
  have := (buffer (ethhdrSize + ipHeaderSize + 12)).toNat_lt
  unfold tcpHeaderLen
  omega

theorem ipTotalLen_lt (buffer : Mem) : ipTotalLen buffer < 2 ^ 16 := by
  have h1 := (buffer 16).toNat_lt
  have h2 := (buffer (16 + 1)).toNat_lt
  unfold ipTotalLen ntohs
  omega

/-- What is left of the packet behind the heads; the length wraps when they are longer. -/
theorem contentLen_spec (buffer : Mem) :
    ipHeaderSize + tcpHeaderLen buffer + contentLen buffer = ipTotalLen buffer ∨
      ipTotalLen buffer < ipHeaderSize + tcpHeaderLen buffer ∧
        ipHeaderSize + tcpHeaderLen buffer + contentLen buffer = 2 ^ 64 + ipTotalLen buffer := by
  have h1 := tcpHeaderLen_le buffer
  have h2 := ipTotalLen_lt buffer
  simp only [contentLen, ipHeaderSize]
  omega

/-- **Exact condition**, for any frame. -/
theorem passes_received_iff (registered : Bool) (r : Received) :
    (∀ call, recvLoop registered r = some call → call.offset + call.contentLen ≤ r.bytes.length) ↔
      (Handled r ∧ registered = true → ipTotalLen r.mem = ipHeaderSize + tcpHeaderLen r.mem ∨
        ipHeaderSize + tcpHeaderLen r.mem < ipTotalLen r.mem ∧ ethhdrSize + ipTotalLen r.mem ≤ r.bytes.length) := by
  have hfits := r.fits
  have hlen := contentLen_spec r.mem
  have hthl := tcpHeaderLen_le r.mem
  simp only [bufferSize, ipHeaderSize, ethhdrSize] at hfits hlen ⊢
  constructor
  · intro h ⟨hhandled, hreg⟩
    by_cases hpos : 0 < contentLen r.mem
    · have hcall := h _ (if_pos ⟨hhandled, hreg, hpos⟩)
      simp only [ipHeaderSize, ethhdrSize] at hcall
      omega
    · omega
  · intro h call hcall
    unfold recvLoop at hcall
    split at hcall
    · rename_i hc
      obtain rfl := Option.some.inj hcall
      have hcases := h ⟨hc.1, hc.2.1⟩
      have hpos := hc.2.2
      simp only [ipHeaderSize, ethhdrSize]
      omega
    · cases hcall

/-- IPv4 and TCP heads with a total length of 100, and nothing behind them. -/
def shortFrame : Received where
  bytes := List.replicate 12 0 ++ [0x08, 0x00] ++ [0x45, 0, 0, 100] ++ List.replicate 5 0 ++ [6] ++
    List.replicate 22 0 ++ [0x50] ++ List.replicate 7 0
  beyond := fun _ => 0
  fits := by decide

/-- **Counterexample.** 60 bytes are passed on, of which none was received. -/
theorem passes_unreceived : ¬ ∀ (r : Received) (call : Call), recvLoop true r = some call →
    call.offset + call.contentLen ≤ r.bytes.length := by
  intro h
  exact absurd (h shortFrame ⟨54, 60, 0, 0, 0, 0⟩ (by decide +kernel)) (by decide)

end MdInfoSet.L2.RawTcpReceiver
