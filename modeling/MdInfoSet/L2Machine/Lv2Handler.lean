import MdInfoSet.L1Encoding.Lv2Frame

/-!
# The Level-2 receive handler

`GFEXQuota::Lv2Handler` (src/dz_gfex_md/src/dz_gfex_md.cpp:330-413) is called
with each TCP segment of the Level-2 stream and hands whole messages to
`OnData_lv2`. Between two calls it keeps a half packet in the globals
`g_extern_msg_buffer`, `g_half_size` and `g_miss_size`.

The loop runs on the memory behind the segment: `memcpy` of the missing bytes
and the framer's 8-byte read do not look at `data_len`, so they can leave the
segment. `data_len` is a `size_t` and wraps when more bytes were missing than
the segment has (`subSize`).

Each branch of the loop has its equation (`lv2Loop_*`); the proofs use these.
-/
namespace MdInfoSet.L2.Lv2Handler

open MdInfoSet.L1.Lv2Frame

/-- `g_half_size`, `g_miss_size` and `g_extern_msg_buffer`. -/
structure HalfPacket where
  halfSize : Nat
  missSize : Nat
  buffer : Mem

def HalfPacket.start : HalfPacket := ⟨0, 0, fun _ => 0⟩

/-- Subtraction of two `size_t`. -/
def subSize (a b : Nat) : Nat := if b ≤ a then a - b else a + 2 ^ 64 - b

/-- The `while` loop (cpp:351-412). `data` is the memory behind `dataptr`,
`msgLen` the length looked up before the loop. Returns the messages handed to
`OnData_lv2`, in order, and the half packet afterwards. -/
def lv2Loop (data : Mem) (msgLen : Nat) (g : HalfPacket) (dataLen : Nat) : List Bytes × HalfPacket :=
  if 6 < dataLen then
    if g.halfSize = 0 then
      let msgLen := getCurReadMsgLength data
      if 0 < msgLen then
        if msgLen ≤ dataLen then
          let (msgs, g') := lv2Loop (data.shift msgLen) msgLen g (dataLen - msgLen)
          (data.slice 0 msgLen :: msgs, g')
        else ([], ⟨dataLen, msgLen - dataLen, g.buffer.memcpy 0 data dataLen⟩)
      else ([], g)
    else if 0 < msgLen then
      -- the segment seems to start with a whole message: the half packet is dropped
      lv2Loop data msgLen HalfPacket.start dataLen
    else
      let buffer := g.buffer.memcpy g.halfSize data g.missSize
      let (msgs, g') := lv2Loop (data.shift g.missSize) msgLen ⟨0, 0, buffer⟩ (subSize dataLen g.missSize)
      (buffer.slice 0 (g.halfSize + g.missSize) :: msgs, g')
  else ([], g)
termination_by (g.halfSize, dataLen)
decreasing_by
  · exact Prod.Lex.right _ (by omega)
  · exact Prod.Lex.left _ _ (by simp only [HalfPacket.start]; omega)
  · exact Prod.Lex.left _ _ (by omega)

section Branches

variable {data : Mem} {msgLen dataLen : Nat} {g : HalfPacket}

/-- At most 6 bytes left: they are dropped. -/
theorem lv2Loop_stop (h : dataLen ≤ 6) : lv2Loop data msgLen g dataLen = ([], g) := by
  rw [lv2Loop, if_neg (by omega)]

/-- No message head: the rest of the segment is dropped. -/
theorem lv2Loop_unknown (h : g.halfSize = 0) (hl : getCurReadMsgLength data = 0) :
    lv2Loop data msgLen g dataLen = ([], g) := by
  by_cases h6 : 6 < dataLen
  · rw [lv2Loop, if_pos h6, if_pos h]
    simp only [hl, Nat.lt_irrefl, if_false]
  · exact lv2Loop_stop (by omega)

theorem lv2Loop_whole (h6 : 6 < dataLen) (h : g.halfSize = 0) (hl : 0 < getCurReadMsgLength data)
    (hle : getCurReadMsgLength data ≤ dataLen) :
    lv2Loop data msgLen g dataLen =
      (data.slice 0 (getCurReadMsgLength data) ::
        (lv2Loop (data.shift (getCurReadMsgLength data)) (getCurReadMsgLength data) g
          (dataLen - getCurReadMsgLength data)).1,
        (lv2Loop (data.shift (getCurReadMsgLength data)) (getCurReadMsgLength data) g
          (dataLen - getCurReadMsgLength data)).2) := by
  rw [lv2Loop, if_pos h6, if_pos h]
  simp only [if_pos hl, if_pos hle]

theorem lv2Loop_half (h6 : 6 < dataLen) (h : g.halfSize = 0) (hgt : dataLen < getCurReadMsgLength data) :
    lv2Loop data msgLen g dataLen =
      ([], ⟨dataLen, getCurReadMsgLength data - dataLen, g.buffer.memcpy 0 data dataLen⟩) := by
  rw [lv2Loop, if_pos h6, if_pos h]
  simp only [if_pos (show 0 < getCurReadMsgLength data by omega), if_neg (Nat.not_le.mpr hgt)]

theorem lv2Loop_discard (h6 : 6 < dataLen) (h : 0 < g.halfSize) (hl : 0 < msgLen) :
    lv2Loop data msgLen g dataLen = lv2Loop data msgLen HalfPacket.start dataLen := by
  conv => lhs; rw [lv2Loop, if_pos h6, if_neg (by omega), if_pos hl]

theorem lv2Loop_fill (h6 : 6 < dataLen) (h : 0 < g.halfSize) :
    lv2Loop data 0 g dataLen =
      ((g.buffer.memcpy g.halfSize data g.missSize).slice 0 (g.halfSize + g.missSize) ::
        (lv2Loop (data.shift g.missSize) 0 ⟨0, 0, g.buffer.memcpy g.halfSize data g.missSize⟩
          (subSize dataLen g.missSize)).1,
        (lv2Loop (data.shift g.missSize) 0 ⟨0, 0, g.buffer.memcpy g.halfSize data g.missSize⟩
          (subSize dataLen g.missSize)).2) := by
  conv => lhs; rw [lv2Loop, if_pos h6, if_neg (by omega), if_neg (by omega)]

end Branches

/-! ## The handler -/

/-- Addresses and ports, of a configuration (0: any) or of a segment. -/
structure NetConfig where
  netSrcIp : UInt32
  netSrcPort : UInt16
  netDstIp : UInt32

/-- The three checks at the head of the handler. -/
def NetConfig.Accepts (config net : NetConfig) : Prop :=
  (config.netSrcIp = 0 ∨ net.netSrcIp = config.netSrcIp) ∧
  (config.netSrcPort = 0 ∨ net.netSrcPort = config.netSrcPort) ∧
  (config.netDstIp = 0 ∨ net.netDstIp = config.netDstIp)

instance (config net : NetConfig) : Decidable (config.Accepts net) := by
  unfold NetConfig.Accepts; infer_instance

/-- mirrors src/dz_gfex_md/src/dz_gfex_md.cpp:330-413 -/
def lv2Handler (config : NetConfig) (g : HalfPacket) (inputdata : Seg) (net : NetConfig) :
    List Bytes × HalfPacket :=
  if config.Accepts net then
    lv2Loop inputdata.mem (getCurReadMsgLength inputdata.mem) g inputdata.bytes.length
  else ([], g)

/-- The messages handed on for the segments of one connection. -/
def feedLv2 (config net : NetConfig) : HalfPacket → List Seg → List Bytes
  | _, [] => []
  | g, s :: ss =>
    (lv2Handler config g s net).1 ++ feedLv2 config net (lv2Handler config g s net).2 ss

end MdInfoSet.L2.Lv2Handler
