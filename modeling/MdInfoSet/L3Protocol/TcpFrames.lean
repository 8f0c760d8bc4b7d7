import MdInfoSet.L2Machine.RawTcpReceiver

/-!
# TCP segments in Ethernet frames

What `RawTcpReceiver::recvLoop` (src/dz_gfex_md/src/raw_tcp_receiver.h:241-313) makes of a
well-formed frame: Ethernet, an IPv4 head of 20 to 60 bytes, a TCP head of 20 to 60 bytes,
the payload and padding. The ports are looked for behind the IP options, the length of the
TCP head and the payload behind 20 bytes of IP head.

* `TcpFrame`: a frame that fits the buffer; `encode` are its bytes.
* `read_heads`: what the receiver reads of it.

**Exact condition** (`extracts_iff`). The payload is passed on as it is, and nothing if it is
empty, exactly if the high half of the frame's byte 46 counts the words of the options and
the TCP head; it does when there are no IP options (`extracts_of_no_options`).

**Counterexample.** A frame with one word of IP options (`options_passed_on`).
-/
namespace MdInfoSet.L3.TcpFrames

open MdInfoSet.L2.RawTcpReceiver

/-! ## Frames -/

/-- The fields of a frame, those with several parts nobody reads as one. `ident` is the
identification, the fragment offset and the time to live; `flags` is what stands behind the
data offset of a TCP head. -/
structure TcpFrame where
  macs : Bytes
  tos : UInt8
  ident : Bytes
  ipChecksum : Bytes
  srcIp : Bytes
  dstIp : Bytes
  ipOptions : Bytes
  srcPort : Bytes
  dstPort : Bytes
  seqAck : Bytes
  reserved : Nat
  flags : Bytes
  tcpOptions : Bytes
  payload : Bytes
  padding : Bytes
  macs_length : macs.length = 12
  ident_length : ident.length = 5
  ipChecksum_length : ipChecksum.length = 2
  srcIp_length : srcIp.length = 4
  dstIp_length : dstIp.length = 4
  srcPort_length : srcPort.length = 2
  dstPort_length : dstPort.length = 2
  seqAck_length : seqAck.length = 8
  reserved_lt : reserved < 16
  flags_length : flags.length = 7
  ipOptions_words : 4 ∣ ipOptions.length
  ipOptions_le : ipOptions.length ≤ 40
  tcpOptions_words : 4 ∣ tcpOptions.length
  tcpOptions_le : tcpOptions.length ≤ 40
  fits : 54 + ipOptions.length + tcpOptions.length + payload.length + padding.length ≤ bufferSize

namespace TcpFrame

/-- The IP head, the TCP head and the payload. -/
def totalLen (f : TcpFrame) : Nat := 40 + f.ipOptions.length + f.tcpOptions.length + f.payload.length

/-- The fields in their order. -/
def fields (f : TcpFrame) : List Bytes :=
  [f.macs, [0x08, 0x00],
    [UInt8.ofNat (4 * 16 + (5 + f.ipOptions.length / 4)), f.tos],
    [UInt8.ofNat (f.totalLen / 2 ^ 8), UInt8.ofNat (f.totalLen % 2 ^ 8)], f.ident, [6], f.ipChecksum,
    f.srcIp, f.dstIp, f.ipOptions, f.srcPort, f.dstPort, f.seqAck,
    [UInt8.ofNat ((5 + f.tcpOptions.length / 4) * 16 + f.reserved)], f.flags, f.tcpOptions, f.payload, f.padding]

def encode (f : TcpFrame) : Bytes := f.fields.flatten

theorem encode_length (f : TcpFrame) : f.encode.length =
    54 + f.ipOptions.length + f.tcpOptions.length + f.payload.length + f.padding.length := by
  simp only [encode, fields, List.length_flatten, List.map_cons, List.map_nil, List.sum_cons, List.sum_nil,
    List.length_cons, List.length_nil, f.macs_length, f.ident_length, f.ipChecksum_length, f.srcIp_length,
    f.dstIp_length, f.srcPort_length, f.dstPort_length, f.seqAck_length, f.flags_length]
  omega

/-- The frame in the buffer, which holds `beyond` behind it. -/
def received (f : TcpFrame) (beyond : Mem) : Received where
  bytes := f.encode
  beyond := beyond
  fits := by
    rw [encode_length]
    exact f.fits

end TcpFrame

/-- The callback is called exactly if the payload is not empty, and with the payload, the
addresses and the ports, as they stand in the frame. -/
def Extracts (f : TcpFrame) (beyond : Mem) : Prop :=
  match recvLoop true (f.received beyond) with
  | none => f.payload = []
  | some call =>
    f.payload ≠ [] ∧ (f.received beyond).mem.slice call.offset call.contentLen = f.payload ∧
    call.netSrcIp = (Mem.ofBytes f.srcIp).u32 0 ∧ call.netDstIp = (Mem.ofBytes f.dstIp).u32 0 ∧
    call.netSrcPort = (Mem.ofBytes f.srcPort).u16 0 ∧ call.netDstPort = (Mem.ofBytes f.dstPort).u16 0

/-! ## What the receiver reads -/

section Reads

variable (f : TcpFrame) (beyond : Mem)

/-- A field at its offset. -/
theorem slice_field (i : Nat) (hi : i < f.fields.length) {off len : Nat}
    (hoff : (f.fields.take i).flatten.length = off) (hlen : f.fields[i].length = len) :
    (f.received beyond).mem.slice off len = f.fields[i] := by
  rw [← hoff, ← hlen]
  exact (show (f.received beyond).mem.Starts f.fields.flatten from Seg.mem_starts _).field i hi

theorem byte_of_slice {d : Mem} {off : Nat} {x : UInt8} (h : d.slice off 1 = [x]) : d off = x :=
  List.head_eq_of_cons_eq h

theorem bytes_of_slice {d : Mem} {off : Nat} {x y : UInt8} (h : d.slice off 2 = [x, y]) :
    d off = x ∧ d (off + 1) = y := by
  injection h with hx hrest
  exact ⟨hx, List.head_eq_of_cons_eq hrest⟩

theorem u16_of_slice {d : Mem} {off : Nat} {bs : Bytes} (h : d.slice off 2 = bs) : d.u16 off = (Mem.ofBytes bs).u16 0 := by
  subst h
  rfl

theorem u32_of_slice {d : Mem} {off : Nat} {bs : Bytes} (h : d.slice off 4 = bs) : d.u32 off = (Mem.ofBytes bs).u32 0 := by
  subst h
  rfl

/-- The frame is handled. -/
theorem handled : Handled (f.received beyond) := by
  have hproto := bytes_of_slice (slice_field f beyond 1 (by simp [TcpFrame.fields])
    (show _ = 12 by simp [TcpFrame.fields, f.macs_length]) rfl)
  have htcp := byte_of_slice (slice_field f beyond 5 (by simp [TcpFrame.fields])
    (show _ = 23 by simp [TcpFrame.fields, f.macs_length, f.ident_length]) rfl)
  refine ⟨?_, ?_, htcp⟩
  · show 54 ≤ f.encode.length
    rw [f.encode_length]
    omega
  · rw [ntohs, hproto.1, hproto.2]
    rfl

theorem ipHLen_eq : ipHLen (f.received beyond).mem = 20 + f.ipOptions.length := by
  have hver := bytes_of_slice (slice_field f beyond 2 (by simp [TcpFrame.fields])
    (show _ = 14 by simp [TcpFrame.fields, f.macs_length]) rfl)
  have hwords := f.ipOptions_words
  have hle := f.ipOptions_le
  rw [ipHLen, hver.1, UInt8.toNat_ofNat']
  omega

theorem ipTotalLen_eq : ipTotalLen (f.received beyond).mem = f.totalLen := by
  have htotal := bytes_of_slice (slice_field f beyond 3 (by simp [TcpFrame.fields])
    (show _ = 16 by simp [TcpFrame.fields, f.macs_length]) rfl)
  have hfits := f.fits
  simp only [bufferSize] at hfits
  rw [ipTotalLen, ntohs, htotal.1, htotal.2, UInt8.toNat_ofNat', UInt8.toNat_ofNat', TcpFrame.totalLen]
  omega

/-- The addresses, and the ports behind the options. -/
theorem read_heads :
    (f.received beyond).mem.u32 26 = (Mem.ofBytes f.srcIp).u32 0 ∧
    (f.received beyond).mem.u32 30 = (Mem.ofBytes f.dstIp).u32 0 ∧
    (f.received beyond).mem.u16 (20 + f.ipOptions.length + 14) = (Mem.ofBytes f.srcPort).u16 0 ∧
    (f.received beyond).mem.u16 (20 + f.ipOptions.length + 14 + 2) = (Mem.ofBytes f.dstPort).u16 0 := by
  refine ⟨u32_of_slice ?_, u32_of_slice ?_, u16_of_slice ?_, u16_of_slice ?_⟩
  · exact slice_field f beyond 7 (by simp [TcpFrame.fields])
      (by simp [TcpFrame.fields, f.macs_length, f.ident_length, f.ipChecksum_length]) f.srcIp_length
  · exact slice_field f beyond 8 (by simp [TcpFrame.fields])
      (by simp [TcpFrame.fields, f.macs_length, f.ident_length, f.ipChecksum_length, f.srcIp_length]) f.dstIp_length
  · refine slice_field f beyond 10 (by simp [TcpFrame.fields]) ?_ f.srcPort_length
    simp [TcpFrame.fields, f.macs_length, f.ident_length, f.ipChecksum_length, f.srcIp_length, f.dstIp_length]
    omega
  · refine slice_field f beyond 11 (by simp [TcpFrame.fields]) ?_ f.dstPort_length
    simp [TcpFrame.fields, f.macs_length, f.ident_length, f.ipChecksum_length, f.srcIp_length, f.dstIp_length,
      f.srcPort_length]
    omega

/-- The payload behind both heads. -/
theorem slice_payload : (f.received beyond).mem.slice (54 + f.ipOptions.length + f.tcpOptions.length)
    f.payload.length = f.payload := by
  refine slice_field f beyond 16 (by simp [TcpFrame.fields]) ?_ rfl
  simp [TcpFrame.fields, f.macs_length, f.ident_length, f.ipChecksum_length, f.srcIp_length, f.dstIp_length,
    f.srcPort_length, f.dstPort_length, f.seqAck_length, f.flags_length]
  omega

/-- The byte behind an IP head without options is the data offset. -/
theorem tcpHeaderLen_of_no_options (h : f.ipOptions = []) :
    tcpHeaderLen (f.received beyond).mem = 20 + f.tcpOptions.length := by
  have hoffset := byte_of_slice (slice_field f beyond 13 (by simp [TcpFrame.fields])
    (show _ = 46 by simp [TcpFrame.fields, f.macs_length, f.ident_length, f.ipChecksum_length, f.srcIp_length,
      f.dstIp_length, f.srcPort_length, f.dstPort_length, f.seqAck_length, h]) rfl)
  have hwords := f.tcpOptions_words
  have hle := f.tcpOptions_le
  have hres := f.reserved_lt
  rw [tcpHeaderLen, ethhdrSize, ipHeaderSize, hoffset, UInt8.toNat_ofNat']
  omega

end Reads

/-! ## The payload -/

/-- The length read for the TCP head. -/
theorem tcpHeaderLen_eq (f : TcpFrame) (beyond : Mem) :
    tcpHeaderLen (f.received beyond).mem = (f.encode.getD 46 0).toNat / 2 ^ 4 * 4 := by
  have hlen := f.encode_length
  have h46 : 46 < f.encode.length := by omega
  have hbyte : (f.received beyond).mem 46 = f.encode[46] := Seg.mem_starts _ 46 h46
  rw [tcpHeaderLen, ethhdrSize, ipHeaderSize, hbyte, List.getD_eq_getElem?_getD, List.getElem?_eq_getElem h46,
    Option.getD_some]

/-- The call, if there is one. -/
theorem recvLoop_received (f : TcpFrame) (beyond : Mem) :
    recvLoop true (f.received beyond) =
      if 0 < contentLen (f.received beyond).mem then
        some ⟨34 + tcpHeaderLen (f.received beyond).mem, contentLen (f.received beyond).mem,
          (Mem.ofBytes f.srcIp).u32 0, (Mem.ofBytes f.srcPort).u16 0, (Mem.ofBytes f.dstIp).u32 0,
          (Mem.ofBytes f.dstPort).u16 0⟩
      else none := by
  obtain ⟨hsrc, hdst, hsrcPort, hdstPort⟩ := read_heads f beyond
  by_cases hpos : 0 < contentLen (f.received beyond).mem
  · rw [recvLoop, if_pos ⟨handled f beyond, rfl, hpos⟩, if_pos hpos, hsrc, hdst, ipHLen_eq, ethhdrSize, hsrcPort,
      hdstPort, ipHeaderSize]
  · rw [recvLoop, if_neg (fun h => hpos h.2.2), if_neg hpos]

/-- **Exact condition**: the length read for the TCP head is that of the options and the head. -/
theorem extracts_iff (f : TcpFrame) (beyond : Mem) :
    Extracts f beyond ↔
      (f.encode.getD 46 0).toNat / 2 ^ 4 * 4 = f.ipOptions.length + 20 + f.tcpOptions.length := by
  have hlen := contentLen_spec (f.received beyond).mem
  have hthl := tcpHeaderLen_le (f.received beyond).mem
  have hfits := f.fits
  rw [ipTotalLen_eq] at hlen
  simp only [ipHeaderSize, TcpFrame.totalLen, bufferSize] at hlen hfits
  rw [← tcpHeaderLen_eq f beyond, Extracts, recvLoop_received]
  by_cases hpos : 0 < contentLen (f.received beyond).mem
  · rw [if_pos hpos]
    constructor
    · rintro ⟨-, hpayload, -⟩
      have hlength : contentLen (f.received beyond).mem = f.payload.length :=
        (Mem.slice_length _ _ _).symm.trans (congrArg List.length hpayload)
      omega
    · intro heq
      have hcontent : contentLen (f.received beyond).mem = f.payload.length := by omega
      have hoffset : 34 + tcpHeaderLen (f.received beyond).mem = 54 + f.ipOptions.length + f.tcpOptions.length := by
        omega
      refine ⟨List.ne_nil_of_length_pos (hcontent ▸ hpos), ?_, rfl, rfl, rfl, rfl⟩
      rw [hoffset, hcontent]
      exact slice_payload f beyond
  · rw [if_neg hpos]
    show f.payload = [] ↔ _
    rw [← List.length_eq_zero_iff]
    omega

theorem extracts_of_no_options (f : TcpFrame) (beyond : Mem) (h : f.ipOptions = []) : Extracts f beyond := by
  rw [extracts_iff, ← tcpHeaderLen_eq f beyond, tcpHeaderLen_of_no_options f beyond h, h, List.length_nil, Nat.zero_add]

/-- One byte of payload behind one word of IP options. -/
def optionFrame : TcpFrame where
  macs := List.replicate 12 0
  tos := 0
  ident := List.replicate 5 0
  ipChecksum := [0, 0]
  srcIp := [10, 0, 0, 1]
  dstIp := [10, 0, 0, 2]
  ipOptions := [1, 1, 1, 0]
  srcPort := [0x1f, 0x90]
  dstPort := [0x1f, 0x91]
  seqAck := List.replicate 8 0
  reserved := 0
  flags := List.replicate 7 0
  tcpOptions := []
  payload := [0x41]
  padding := []
  macs_length := rfl
  ident_length := rfl
  ipChecksum_length := rfl
  srcIp_length := rfl
  dstIp_length := rfl
  srcPort_length := rfl
  dstPort_length := rfl
  seqAck_length := rfl
  reserved_lt := by decide
  flags_length := rfl
  ipOptions_words := by decide
  ipOptions_le := by decide
  tcpOptions_words := by decide
  tcpOptions_le := by decide
  fits := by decide

/-- **Counterexample.** The options and the TCP head are passed on with the payload. -/
theorem options_passed_on : ¬ ∀ (f : TcpFrame) (beyond : Mem), Extracts f beyond := by
  intro h
  have hcall : recvLoop true (optionFrame.received fun _ => 0) =
      some ⟨34, 25, 0x0100000a, 0x901f, 0x0200000a, 0x911f⟩ := by decide +kernel
  have hextracts := h optionFrame fun _ => 0
  rw [Extracts, hcall] at hextracts
  exact absurd (congrArg List.length hextracts.2.1) (by decide)

end MdInfoSet.L3.TcpFrames
