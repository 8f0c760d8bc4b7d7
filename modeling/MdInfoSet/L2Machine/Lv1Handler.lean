import MdInfoSet.L1Encoding.Lv1Head
import MdInfoSet.L2Machine.Lv2Handler

/-!
# The Level-1 receive handler

`GFEXQuota::OnData_lv1` (src/dz_gfex_md/src/dz_gfex_md.cpp:940-1155) takes a TCP
segment of the Level-1 stream in four stages:

1. a segment that begins with a head or a mark drops the half message kept so
   far, and a leading index head is skipped;
2. otherwise the half message is completed (`halfStage`), or grows;
3. bytes are skipped up to the first head or mark (`lv1Scan`);
4. the messages from there on are handed to the three handlers, and the last one,
   if it is not whole, is kept (`lv1Loop`).

`re_msg_len` is an `int32_t` compared with `size_t` values; `asSize` and
`asInt32` are the conversions. Writes behind the 1024 bytes of `m_half_buffer`
are not modelled.
-/
namespace MdInfoSet.L2.Lv1Handler

open MdInfoSet.L1.Lv1Head MdInfoSet.L2.Lv2Handler

/-- A call of `HandleLv1Code2Index`, `HandleLv1StaticInfo` or `HandleLv1Quota`. -/
inductive Call where
  | code2Index (data : Bytes)
  | staticInfo (data : Bytes)
  | quota (data : Bytes)
  deriving DecidableEq

/-- `m_half_buffer` and `m_half_buffer_used`. -/
structure HalfBuffer where
  used : Nat
  buffer : Mem

def HalfBuffer.start : HalfBuffer := ⟨0, fun _ => 0⟩

/-- An `int32_t` as `size_t`. -/
def asSize (re : Int) : Nat := (re % 2 ^ 64).toNat

/-- A `size_t` as `int32_t`. -/
def asInt32 (n : Int) : Int := Int.bmod n (2 ^ 32)

theorem asSize_ofNat {n : Nat} (h : n < 2 ^ 31) : asSize n = n := by
  unfold asSize; omega

theorem asInt32_ofNat {n : Nat} (h : n < 2 ^ 31) : asInt32 n = n :=
  Int.bmod_eq_of_le (by omega) (by omega)

/-! ## Login messages -/

/-- The `MAGIC_PATTERN` of `is_remote_str`, of 24 bytes. -/
def remoteStr : Bytes :=
  [0x01, 0x00, 0x01, 0xa0, 0x00, 0x00, 0x00, 0x00, 0x01, 0x00, 0x00, 0x00, 0x12, 0x53, 0x00, 0x01,
    0x00, 0x00, 0x00, 0x01, 0x00, 0x02, 0x01, 0x8c]

/-- The `MAGIC_PATTERN` of `is_remote_date_notify`, of 56 bytes. -/
def remoteDateNotify : Bytes :=
  [0x01, 0x00, 0x00, 0xbe, 0x00, 0x00, 0x00, 0x00, 0x01, 0x00, 0x00, 0x01, 0xf2, 0x53, 0x00, 0x01,
    0x00, 0x00, 0x00, 0x02, 0x00, 0x02, 0x00, 0xaa, 0x00, 0x00, 0x00, 0x01, 0x00, 0x3f, 0x00, 0x00,
    0x00, 0x00, 0xbd, 0xbb, 0xd2, 0xd7, 0xcf, 0xaf, 0xce, 0xbb, 0xb5, 0xc7, 0xc2, 0xbc, 0xb3, 0xc9,
    0xb9, 0xa6, 0x21, 0x00, 0x00, 0x00, 0x00, 0x00]

/-- `len >= PATTERN_LEN` and `memcmp(msg, MAGIC_PATTERN, PATTERN_LEN) == 0` -/
def matchesPattern (pattern : Bytes) (msg : Mem) (len : Nat) : Prop :=
  pattern.length ≤ len ∧ msg.slice 0 pattern.length = pattern

instance (pattern : Bytes) (msg : Mem) (len : Nat) : Decidable (matchesPattern pattern msg len) := by
  unfold matchesPattern; infer_instance

/-- mirrors src/dz_gfex_md/src/dz_gfex_md.h:442-453 -/
def isRemoteStr (msg : Mem) (len : Nat) : Prop := matchesPattern remoteStr msg len

/-- mirrors src/dz_gfex_md/src/dz_gfex_md.h:455-471 -/
def isRemoteDateNotify (msg : Mem) (len : Nat) : Prop := matchesPattern remoteDateNotify msg len

def isLogin (msg : Mem) (len : Nat) : Prop := isRemoteDateNotify msg len ∨ isRemoteStr msg len

instance (msg : Mem) (len : Nat) : Decidable (isLogin msg len) := by
  unfold isLogin isRemoteDateNotify isRemoteStr; infer_instance

/-- A login message shows neither a head nor a mark. -/
theorem isLogin.not_shown {msg : Mem} {len : Nat} (h : isLogin msg len) (n : Nat) :
    ¬ HasMark msg ∧ getCommonHeadType msg n = none := by
  have h5 : msg 5 = 0 ∧ (CommonHead.ofMem msg).mark4 ≠ 0x0200 ∧ (CommonHead.ofMem msg).mark4 ≠ 0x0800 := by
    simp only [CommonHead.ofMem, Mem.u16, Nat.reduceAdd]
    rcases h with ⟨-, h⟩ | ⟨-, h⟩
    · have hd := Mem.starts_iff_slice.mpr h
      rw [hd 5 (by decide), hd 10 (by decide), hd 11 (by decide)]
      decide
    · have hd := Mem.starts_iff_slice.mpr h
      rw [hd 5 (by decide), hd 10 (by decide), hd 11 (by decide)]
      decide
  constructor
  · intro hm
    have h2 := (msg 2).toNat_lt
    have h3 := (msg 3).toNat_lt
    have h4 := (msg 4).toNat_lt
    simp only [HasMark, markInfo, Mem.u32, Mem.u16, Nat.reduceAdd, h5.1] at hm
    rw [show (0 : UInt8).toNat = 0 from rfl] at hm
    omega
  · unfold getCommonHeadType
    split
    · rfl
    · exact if_pos (.inr (.inr (.inr (.inl h5.2))))

/-! ## The half message -/

/-- How the second stage ends. -/
inductive HalfResult where
  /-- The message is still not whole: the handler returns. -/
  | more (g : HalfBuffer)
  /-- `need` bytes of the segment are done with. -/
  | done (calls : List Call) (need : Nat) (buffer : Mem)

/-- A half message of `total` bytes: it grows, or is completed and handled. -/
def fillHalf (used : Nat) (buffer start : Mem) (re : Int) (total : Nat) (calls : Mem → List Call) :
    HalfResult :=
  let need := subSize total used
  if asSize re < need then .more ⟨used + asSize re, buffer.memcpy used start (asSize re)⟩
  else
    let buffer := buffer.memcpy used start need
    .done (calls buffer) need buffer

/-- The body of a static message; other time messages are not handled. -/
def timeCalls (msg : Mem) : List Call :=
  if (CommonHead.ofMem msg).qLen = 0xfe then
    [.staticInfo (msg.slice sizeofCommonHead (CommonHead.ofMem msg).qLen)] else []

/-- The buffer after the first copy (cpp:1004-1006): enough of the segment to
recognise the message, if only a byte or two of it were kept. -/
def copyHead (g : HalfBuffer) (start : Mem) (re : Int) : Mem :=
  if g.used < 60 then g.buffer.memcpy g.used start (asSize (min 60 re)) else g.buffer

/-- cpp:1003-1073 -/
def halfStage (g : HalfBuffer) (start : Mem) (re : Int) : HalfResult :=
  let buffer := copyHead g start re
  match getCommonHeadType buffer sizeofCommonHead with
  | some (.index, _) =>
    let need := subSize sizeofCommonHead g.used
    .done [] need (buffer.memcpy g.used start need)
  | type =>
    if HasMark buffer then
      fillHalf g.used buffer start re sizeofCodeMappingInfo fun msg =>
        [.code2Index (msg.slice 0 sizeofCodeMappingInfo)]
    else match type with
      | some (.time, _) =>
        fillHalf g.used buffer start re ((CommonHead.ofMem buffer).qLen + sizeofCommonHead) timeCalls
      | some (.arbitrage, qLen) => fillHalf g.used buffer start re (qLen + sizeofCommonHead) fun _ => []
      | some (.quota, _) =>
        fillHalf g.used buffer start re ((CommonHead.ofMem buffer).qLen + sizeofCommonHead) fun msg =>
          [.quota (msg.slice sizeofCommonHead (CommonHead.ofMem msg).qLen)]
      | _ => .done [] 0 buffer

/-! ## The loops -/

/-- cpp:1075-1082: to the first byte that begins a head or a mark. -/
def lv1Scan (start : Mem) : Nat → Mem × Nat
  | 0 => (start, 0)
  | re + 1 =>
    if (sizeofStaticInfoMark ≤ re + 1 ∧ HasMark start) ∨
        (sizeofCommonHead ≤ re + 1 ∧ (getCommonHeadType start (re + 1)).isSome) then (start, re + 1)
    else lv1Scan (start.shift 1) re

/-- The message at `start` is not whole (cpp:1093-1095). -/
def isPart (start : Mem) (re : Nat) : Option (HeadType × Nat) → Prop
  | some (.time, qLen) | some (.quota, qLen) =>
    re < sizeofCommonHead ∨ (HasMark start ∧ re < sizeofCodeMappingInfo) ∨ re < qLen + sizeofCommonHead
  | _ => re < sizeofCommonHead ∨ (HasMark start ∧ re < sizeofCodeMappingInfo)

instance (start : Mem) (re : Nat) (type : Option (HeadType × Nat)) : Decidable (isPart start re type) := by
  unfold isPart; split <;> infer_instance

/-- What is skipped before the check for a mapping record. -/
def indexLen : Option (HeadType × Nat) → Nat
  | some (.index, _) => sizeofCommonHead
  | _ => 0

@[simp] theorem indexLen_none : indexLen none = 0 := rfl

/-- The second `while` loop (cpp:1089-1153). An arbitrage message is not consumed,
so the loop does not end on it: `none`. -/
def lv1Loop (start : Mem) (re : Nat) (g : HalfBuffer) : Option (List Call × HalfBuffer) :=
  if re = 0 then some ([], g)
  else
    let type := getCommonHeadType start re
    if isPart start re type then some ([], ⟨re, g.buffer.memcpy 0 start re⟩)
    else
      let skip := indexLen type
      if HasMark (start.shift skip) ∧ sizeofCodeMappingInfo ≤ re - skip then
        (lv1Loop (start.shift (skip + sizeofCodeMappingInfo)) (re - (skip + sizeofCodeMappingInfo)) g).map
          fun (calls, g') => (.code2Index ((start.shift skip).slice 0 sizeofCodeMappingInfo) :: calls, g')
      else match type with
        | some (.time, qLen) =>
          (lv1Loop (start.shift (qLen + sizeofCommonHead)) (re - (qLen + sizeofCommonHead)) g).map
            fun (calls, g') => (timeCalls start ++ calls, g')
        | some (.arbitrage, _) => none
        | some (.quota, qLen) =>
          (lv1Loop (start.shift (qLen + sizeofCommonHead)) (re - (qLen + sizeofCommonHead)) g).map
            fun (calls, g') => (.quota (start.slice sizeofCommonHead qLen) :: calls, g')
        | _ => some ([], ⟨re - skip, g.buffer.memcpy 0 (start.shift skip) (re - skip)⟩)
termination_by re
decreasing_by all_goals simp only [sizeofCommonHead, sizeofCodeMappingInfo]; omega

section Branches

variable {start : Mem} {re qLen : Nat} {g : HalfBuffer}

theorem lv1Loop_zero : lv1Loop start 0 g = some ([], g) := by
  rw [lv1Loop, if_pos rfl]

theorem lv1Loop_part (h0 : 0 < re) (hp : isPart start re (getCommonHeadType start re)) :
    lv1Loop start re g = some ([], ⟨re, g.buffer.memcpy 0 start re⟩) := by
  rw [lv1Loop, if_neg (by omega)]
  exact if_pos hp

theorem lv1Loop_mapping (hmark : HasMark start) (hre : sizeofCodeMappingInfo ≤ re) :
    lv1Loop start re g =
      (lv1Loop (start.shift sizeofCodeMappingInfo) (re - sizeofCodeMappingInfo) g).map
        fun r => (.code2Index (start.slice 0 sizeofCodeMappingInfo) :: r.1, r.2) := by
  have hpart : ¬ isPart start re none := by
    unfold isPart sizeofCommonHead sizeofCodeMappingInfo at *
    omega
  have h0 : re ≠ 0 := by unfold sizeofCodeMappingInfo at hre; omega
  conv => lhs; rw [lv1Loop, if_neg h0]
  simp only [hmark.not_head, if_neg hpart, indexLen, Mem.shift_zero, Nat.sub_zero, Nat.zero_add]
  rw [if_pos ⟨hmark, hre⟩]

theorem lv1Loop_time (h : getCommonHeadType start re = some (.time, qLen))
    (hre : qLen + sizeofCommonHead ≤ re) :
    lv1Loop start re g =
      (lv1Loop (start.shift (qLen + sizeofCommonHead)) (re - (qLen + sizeofCommonHead)) g).map
        fun r => (timeCalls start ++ r.1, r.2) := by
  have hmark := not_hasMark h
  have hpart : ¬ isPart start re (some (.time, qLen)) := by
    unfold isPart sizeofCommonHead at *
    rintro (h | h | h)
    · omega
    · exact hmark h.1
    · omega
  have h0 : re ≠ 0 := by unfold sizeofCommonHead at hre; omega
  conv => lhs; rw [lv1Loop, if_neg h0]
  simp only [h, if_neg hpart, indexLen, Mem.shift_zero, Nat.sub_zero]
  rw [if_neg fun hm => hmark hm.1]

theorem lv1Loop_quota (h : getCommonHeadType start re = some (.quota, qLen))
    (hre : qLen + sizeofCommonHead ≤ re) :
    lv1Loop start re g =
      (lv1Loop (start.shift (qLen + sizeofCommonHead)) (re - (qLen + sizeofCommonHead)) g).map
        fun r => (.quota (start.slice sizeofCommonHead qLen) :: r.1, r.2) := by
  have hmark := not_hasMark h
  have hpart : ¬ isPart start re (some (.quota, qLen)) := by
    unfold isPart sizeofCommonHead at *
    rintro (h | h | h)
    · omega
    · exact hmark h.1
    · omega
  have h0 : re ≠ 0 := by unfold sizeofCommonHead at hre; omega
  conv => lhs; rw [lv1Loop, if_neg h0]
  simp only [h, if_neg hpart, indexLen, Mem.shift_zero, Nat.sub_zero]
  rw [if_neg fun hm => hmark hm.1]

/-- What stands behind an index head in the loop: nothing, a whole mapping record,
or a message that is not whole. Then the head is just skipped. -/
theorem lv1Loop_index (h : getCommonHeadType start re = some (.index, qLen)) (hre : sizeofCommonHead ≤ re)
    (hg : g.used = 0)
    (hnext : re - sizeofCommonHead = 0 ∨
      (HasMark (start.shift sizeofCommonHead) ∧ sizeofCodeMappingInfo ≤ re - sizeofCommonHead) ∨
      isPart (start.shift sizeofCommonHead) (re - sizeofCommonHead)
        (getCommonHeadType (start.shift sizeofCommonHead) (re - sizeofCommonHead))) :
    lv1Loop start re g = lv1Loop (start.shift sizeofCommonHead) (re - sizeofCommonHead) g := by
  have hmark := not_hasMark h
  have hpart : ¬ isPart start re (some (.index, qLen)) := by
    unfold isPart
    rintro (h | h)
    · omega
    · exact hmark h.1
  have h0 : re ≠ 0 := by unfold sizeofCommonHead at hre; omega
  conv => lhs; rw [lv1Loop, if_neg h0]
  simp only [h, if_neg hpart, indexLen]
  by_cases hm : HasMark (start.shift sizeofCommonHead) ∧ sizeofCodeMappingInfo ≤ re - sizeofCommonHead
  · rw [if_pos hm, lv1Loop_mapping hm.1 hm.2, Mem.shift_shift, Nat.sub_sub]
  · rw [if_neg hm]
    rcases hnext with hz | hnext | hnext
    · rw [hz, lv1Loop_zero, Mem.memcpy_zero, ← hg]
    · exact absurd hnext hm
    · rcases Nat.eq_zero_or_pos (re - sizeofCommonHead) with hz | hpos
      · rw [hz, lv1Loop_zero, Mem.memcpy_zero, ← hg]
      · rw [lv1Loop_part hpos hnext]

end Branches

/-! ## The handler -/

/-- The last two stages. -/
def lv1Parse (start : Mem) (re : Int) (g : HalfBuffer) : Option (List Call × HalfBuffer) :=
  let (start, re) := lv1Scan start re.toNat
  lv1Loop start re g

/-- mirrors src/dz_gfex_md/src/dz_gfex_md.cpp:940-1155 -/
def onDataLv1 (config : NetConfig) (g : HalfBuffer) (data : Seg) (net : NetConfig) :
    Option (List Call × HalfBuffer) :=
  let len := data.bytes.length
  if ¬ config.Accepts net then some ([], g)
  else if isLogin data.mem len then some ([], g)
  else
    let re := asInt32 len
    let type := getCommonHeadType data.mem (asSize re)
    let skip := indexLen type
    let start := data.mem.shift skip
    let re := re - skip
    let g := if type.isSome ∨ HasMark data.mem then { g with used := 0 } else g
    if 0 < g.used then
      match halfStage g start re with
      | .more g' => some ([], g')
      | .done calls need buffer =>
        (lv1Parse (start.shift need) (asInt32 (re - need)) ⟨0, buffer⟩).map
          fun r => (calls ++ r.1, r.2)
    else lv1Parse start re g

section Stages

variable {config net : NetConfig} (hnet : config.Accepts net) {data : Seg} {g : HalfBuffer}
  (hlen : data.bytes.length < 2 ^ 31) (hlogin : ¬ isLogin data.mem data.bytes.length)

include hnet hlen hlogin

omit hlogin in
/-- A segment that begins with a head or a mark drops the half message. -/
theorem onDataLv1_drop (h : (getCommonHeadType data.mem data.bytes.length).isSome ∨ HasMark data.mem) :
    onDataLv1 config g data net = onDataLv1 config { g with used := 0 } data net := by
  have hlogin : ¬ isLogin data.mem data.bytes.length := by
    intro hl
    obtain ⟨hmark, hhead⟩ := hl.not_shown data.bytes.length
    rcases h with h | h
    · rw [hhead] at h; cases h
    · exact hmark h
  unfold onDataLv1
  dsimp only
  rw [if_neg (not_not.mpr hnet), if_neg (not_not.mpr hnet), if_neg hlogin, if_neg hlogin,
    asInt32_ofNat hlen, asSize_ofNat hlen, if_pos h, if_pos h]

/-- Without a half message: the last two stages, behind a leading index head. -/
theorem onDataLv1_idle (hg : g.used = 0) {k : Nat}
    (hskip : indexLen (getCommonHeadType data.mem data.bytes.length) = k) :
    onDataLv1 config g data net = lv1Parse (data.mem.shift k) (data.bytes.length - k) g := by
  have hkeep : (if (getCommonHeadType data.mem data.bytes.length).isSome ∨ HasMark data.mem then
      { g with used := 0 } else g) = g := by
    rw [← hg]
    exact ite_self g
  unfold onDataLv1
  dsimp only
  rw [if_neg (not_not.mpr hnet), if_neg hlogin, asInt32_ofNat hlen, asSize_ofNat hlen, hkeep, hskip, hg,
    if_neg (Nat.lt_irrefl 0)]

/-- With a half message, and neither a head nor a mark in front. -/
theorem onDataLv1_half (hg : 0 < g.used) (hhead : getCommonHeadType data.mem data.bytes.length = none)
    (hmark : ¬ HasMark data.mem) :
    onDataLv1 config g data net =
      match halfStage g data.mem data.bytes.length with
      | .more g' => some ([], g')
      | .done calls need buffer =>
        (lv1Parse (data.mem.shift need) (asInt32 (data.bytes.length - need)) ⟨0, buffer⟩).map
          fun r => (calls ++ r.1, r.2) := by
  have hnone : ¬ ((none : Option (HeadType × Nat)).isSome ∨ HasMark data.mem) := by
    rintro (h | h)
    · cases h
    · exact hmark h
  unfold onDataLv1
  dsimp only
  rw [if_neg (not_not.mpr hnet), if_neg hlogin, asInt32_ofNat hlen, asSize_ofNat hlen, hhead,
    if_neg hnone, if_pos hg, indexLen_none, Mem.shift_zero, Int.natCast_zero, Int.sub_zero]

end Stages

/-- The calls made for the segments of one connection. -/
def feedLv1 (config net : NetConfig) : HalfBuffer → List Seg → Option (List Call)
  | _, [] => some []
  | g, s :: ss =>
    (onDataLv1 config g s net).bind fun r => (feedLv1 config net r.2 ss).map fun calls => r.1 ++ calls

end MdInfoSet.L2.Lv1Handler
