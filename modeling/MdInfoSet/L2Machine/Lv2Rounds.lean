import MdInfoSet.Core.Machine
import MdInfoSet.Core.WhileLoop
import MdInfoSet.L2Machine.Lv2Handler

/-!
# What the Level-2 receive handler reads

The loop of `GFEXQuota::Lv2Handler` (src/dz_gfex_md/src/dz_gfex_md.cpp:345-412), round by
round, with the places of the segment each round reads. The framer looks at 8 bytes
wherever more than 6 are left, and once before the loop, whatever the segment's length;
the missing bytes of a half packet are copied whether they are there or not.

**Exact condition.** Over every run, each call reads bytes of its segment only, with
`dataptr` and `data_len` in step, if and only if each segment `Fits`: it has at least 8
bytes and all that the half packet misses, and cutting whole messages off the rest never
leaves exactly 7 bytes (`along_staysInside_iff`).
-/
namespace MdInfoSet.L2.Lv2Rounds

open MdInfoSet.L1.Lv2Frame MdInfoSet.L2.Lv2Handler
open MdInfoSet.WhileLoop (Round Ends Visits Throughout)

/-! ## Rounds -/

/-- `off` is `dataptr - inputdata`. -/
structure LoopState where
  off : Nat
  dataLen : Nat
  msgLen : Nat
  half : HalfPacket
  msgs : List Bytes

/-- The condition of the loop and its body (cpp:351-412). -/
def lv2Round (data : Mem) (s : LoopState) : Round LoopState (List Bytes × HalfPacket) :=
  if 6 < s.dataLen then
    if s.half.halfSize = 0 then
      let msgLen := getCurReadMsgLength (data.shift s.off)
      if 0 < msgLen then
        if msgLen ≤ s.dataLen then
          .next ⟨s.off + msgLen, s.dataLen - msgLen, msgLen, s.half, s.msgs ++ [data.slice s.off msgLen]⟩
        else
          .leave (s.msgs, ⟨s.dataLen, msgLen - s.dataLen, s.half.buffer.memcpy 0 (data.shift s.off) s.dataLen⟩)
      else .leave (s.msgs, s.half)
    else if 0 < s.msgLen then .next { s with half := HalfPacket.start }
    else
      let buffer := s.half.buffer.memcpy s.half.halfSize (data.shift s.off) s.half.missSize
      .next ⟨s.off + s.half.missSize, subSize s.dataLen s.half.missSize, s.msgLen, ⟨0, 0, buffer⟩,
        s.msgs ++ [buffer.slice 0 (s.half.halfSize + s.half.missSize)]⟩
  else .leave (s.msgs, s.half)

section Branches

variable {data : Mem} {s : LoopState}

theorem lv2Round_stop (h : s.dataLen ≤ 6) : lv2Round data s = .leave (s.msgs, s.half) := by
  rw [lv2Round, if_neg (by omega)]

theorem lv2Round_unknown (h6 : 6 < s.dataLen) (h : s.half.halfSize = 0)
    (hl : getCurReadMsgLength (data.shift s.off) = 0) : lv2Round data s = .leave (s.msgs, s.half) := by
  rw [lv2Round, if_pos h6, if_pos h]
  simp [hl]

theorem lv2Round_whole (h6 : 6 < s.dataLen) (h : s.half.halfSize = 0) {n : Nat}
    (hl : getCurReadMsgLength (data.shift s.off) = n) (hpos : 0 < n) (hle : n ≤ s.dataLen) :
    lv2Round data s = .next ⟨s.off + n, s.dataLen - n, n, s.half, s.msgs ++ [data.slice s.off n]⟩ := by
  subst hl
  rw [lv2Round, if_pos h6, if_pos h]
  simp only [if_pos hpos, if_pos hle]

theorem lv2Round_half (h6 : 6 < s.dataLen) (h : s.half.halfSize = 0) {n : Nat}
    (hl : getCurReadMsgLength (data.shift s.off) = n) (hgt : s.dataLen < n) :
    lv2Round data s = .leave (s.msgs,
      ⟨s.dataLen, n - s.dataLen, s.half.buffer.memcpy 0 (data.shift s.off) s.dataLen⟩) := by
  subst hl
  rw [lv2Round, if_pos h6, if_pos h]
  simp only [if_pos (show 0 < getCurReadMsgLength (data.shift s.off) by omega), if_neg (Nat.not_le.mpr hgt)]

theorem lv2Round_discard (h6 : 6 < s.dataLen) (h : 0 < s.half.halfSize) (hl : 0 < s.msgLen) :
    lv2Round data s = .next { s with half := HalfPacket.start } := by
  rw [lv2Round, if_pos h6, if_neg (by omega), if_pos hl]

theorem lv2Round_fill (h6 : 6 < s.dataLen) (h : 0 < s.half.halfSize) (hl : s.msgLen = 0) {buffer : Mem}
    (hb : s.half.buffer.memcpy s.half.halfSize (data.shift s.off) s.half.missSize = buffer) :
    lv2Round data s =
      .next ⟨s.off + s.half.missSize, subSize s.dataLen s.half.missSize, 0, ⟨0, 0, buffer⟩,
        s.msgs ++ [buffer.slice 0 (s.half.halfSize + s.half.missSize)]⟩ := by
  subst hb
  rw [lv2Round, if_pos h6, if_neg (by omega), if_neg (by omega), hl]

end Branches

/-- `lv2Loop` is the loop of these rounds. -/
theorem lv2Loop_ends {data : Mem} (s : LoopState) (r : List Bytes × HalfPacket) :
    Ends (lv2Round data) s r ↔
      r = (s.msgs ++ (lv2Loop (data.shift s.off) s.msgLen s.half s.dataLen).1,
        (lv2Loop (data.shift s.off) s.msgLen s.half s.dataLen).2) := by
  obtain ⟨off, dataLen, msgLen, half, msgs⟩ := s
  dsimp only
  generalize hd : data.shift off = d
  induction d, msgLen, half, dataLen using lv2Loop.induct generalizing off msgs with
  | case1 d msgLen g dataLen h6 hg len hpos hle msgs' g' heq ih =>
    subst hd
    have hround := @lv2Round_whole data ⟨off, dataLen, msgLen, g, msgs⟩ h6 hg _ rfl hpos hle
    rw [WhileLoop.ends_next hround, ih _ _ (Mem.shift_shift _ _ _).symm, lv2Loop_whole h6 hg hpos hle, List.append_assoc]
    simp [len, Mem.slice_shift]
  | case2 d msgLen g dataLen h6 hg len hpos hgt =>
    subst hd
    have hround := @lv2Round_half data ⟨off, dataLen, msgLen, g, msgs⟩ h6 hg _ rfl (Nat.not_le.mp hgt)
    rw [WhileLoop.ends_leave hround, lv2Loop_half h6 hg (Nat.not_le.mp hgt)]
    simp
  | case3 d msgLen g dataLen h6 hg len hzero =>
    subst hd
    have hl := Nat.eq_zero_of_not_pos hzero
    rw [WhileLoop.ends_leave (lv2Round_unknown h6 hg hl), lv2Loop_unknown hg hl]
    simp
  | case4 d msgLen g dataLen h6 hg hpos ih =>
    have hg' := Nat.pos_of_ne_zero hg
    rw [WhileLoop.ends_next (lv2Round_discard h6 hg' hpos), ih _ _ hd, lv2Loop_discard h6 hg' hpos]
  | case5 d msgLen g dataLen h6 hg hzero buffer msgs' g' heq ih =>
    subst hd
    obtain rfl : msgLen = 0 := Nat.eq_zero_of_not_pos hzero
    have hg' := Nat.pos_of_ne_zero hg
    have hround := @lv2Round_fill data ⟨off, dataLen, 0, g, msgs⟩ h6 hg' rfl _ rfl
    rw [WhileLoop.ends_next hround, ih _ _ (Mem.shift_shift _ _ _).symm, lv2Loop_fill h6 hg', List.append_assoc]
    simp [buffer]
  | case6 d msgLen g dataLen h6 =>
    have h6' := Nat.not_lt.mp h6
    rw [WhileLoop.ends_leave (lv2Round_stop h6'), lv2Loop_stop h6']
    simp

/-! ## The bytes a call reads -/

/-- What `GetCurReadMsgLength` reads, as offsets and lengths: `PacketLen`, and the type
unless that decides. -/
def headReads (data : Mem) (off : Nat) : List (Nat × Nat) :=
  (off + 4, 4) :: if (data.shift off).i32 4 = lv2ObQuoteLen then [] else [(off, 1)]

/-- What one round reads of the segment, the messages it hands on included. -/
def roundReads (data : Mem) (s : LoopState) : List (Nat × Nat) :=
  if 6 < s.dataLen then
    if s.half.halfSize = 0 then
      let msgLen := getCurReadMsgLength (data.shift s.off)
      headReads data s.off ++
        if 0 < msgLen then if msgLen ≤ s.dataLen then [(s.off, msgLen)] else [(s.off, s.dataLen)] else []
    else if 0 < s.msgLen then []
    else [(s.off, s.half.missSize)]
  else []

/-- What one round takes off `data_len`. -/
def roundTakes (data : Mem) (s : LoopState) : Nat :=
  if 6 < s.dataLen then
    if s.half.halfSize = 0 then
      let msgLen := getCurReadMsgLength (data.shift s.off)
      if msgLen ≤ s.dataLen then msgLen else 0
    else if 0 < s.msgLen then 0
    else s.half.missSize
  else 0

/-- A round on a segment of `size` bytes: `dataptr` and `data_len` are in step, `data_len`
does not wrap, and only bytes of the segment are read. -/
structure Inside (data : Mem) (size : Nat) (s : LoopState) : Prop where
  rest : s.off + s.dataLen = size
  takes : roundTakes data s ≤ s.dataLen
  reads : ∀ r ∈ roundReads data s, r.1 + r.2 ≤ size

/-- The state the loop is entered in. -/
def LoopState.enter (g : HalfPacket) (inputdata : Seg) : LoopState :=
  ⟨0, inputdata.bytes.length, getCurReadMsgLength inputdata.mem, g, []⟩

/-- One call stays inside its segment, in the look-up before the loop and in all rounds. -/
def StaysInside (config : NetConfig) (g : HalfPacket) (inputdata : Seg) (net : NetConfig) : Prop :=
  config.Accepts net →
    (∀ r ∈ headReads inputdata.mem 0, r.1 + r.2 ≤ inputdata.bytes.length) ∧
    Throughout (lv2Round inputdata.mem) (Inside inputdata.mem inputdata.bytes.length) (.enter g inputdata)

theorem headReads_le_iff (data : Mem) (off size : Nat) :
    (∀ r ∈ headReads data off, r.1 + r.2 ≤ size) ↔ off + 8 ≤ size := by
  unfold headReads
  split
  · simp [Nat.add_assoc]
  · simp only [List.mem_cons, List.not_mem_nil, or_false, forall_eq_or_imp, forall_eq]
    omega

/-! ## The condition on a segment -/

/-- Cutting whole messages off the `n` bytes at `off`, one gets to the `n'` bytes at `off'`. -/
inductive Cuts (data : Mem) : Nat → Nat → Nat → Nat → Prop where
  | here (off n : Nat) : Cuts data off n off n
  | pass {off n off' n' : Nat} (h6 : 6 < n) (hpos : 0 < getCurReadMsgLength (data.shift off))
    (hle : getCurReadMsgLength (data.shift off) ≤ n)
    (rest : Cuts data (off + getCurReadMsgLength (data.shift off))
      (n - getCurReadMsgLength (data.shift off)) off' n') : Cuts data off n off' n'

/-- Cutting them off never leaves exactly 7 bytes, one more than the handler checks for and
one less than the framer reads. -/
def NeverSeven (data : Mem) (off n : Nat) : Prop := ∀ off' n', Cuts data off n off' n' → n' ≠ 7

theorem neverSeven_iff {data : Mem} {off n : Nat} :
    NeverSeven data off n ↔ n ≠ 7 ∧
      (6 < n → 0 < getCurReadMsgLength (data.shift off) → getCurReadMsgLength (data.shift off) ≤ n →
        NeverSeven data (off + getCurReadMsgLength (data.shift off))
          (n - getCurReadMsgLength (data.shift off))) := by
  constructor
  · intro h
    exact ⟨h _ _ (.here off n), fun h6 hpos hle off' n' hc => h off' n' (.pass h6 hpos hle hc)⟩
  · intro ⟨h, hpass⟩ off' n' hc
    cases hc with
    | here => exact h
    | pass h6 hpos hle hrest => exact hpass h6 hpos hle off' n' hrest

/-- The bytes of the segment copied behind the half packet: all it misses, unless a message
seems to begin here. -/
def fills (g : HalfPacket) (data : Mem) : Nat :=
  if 0 < g.halfSize ∧ getCurReadMsgLength data = 0 then g.missSize else 0

structure Fits (g : HalfPacket) (inputdata : Seg) : Prop where
  head : 8 ≤ inputdata.bytes.length
  fills : fills g inputdata.mem ≤ inputdata.bytes.length
  rest : NeverSeven inputdata.mem (Lv2Rounds.fills g inputdata.mem)
    (inputdata.bytes.length - Lv2Rounds.fills g inputdata.mem)

/-! ## One call -/

/-- Without a half packet. -/
theorem throughout_idle {data : Mem} {size : Nat} (s : LoopState) (hg : s.half.halfSize = 0)
    (hrest : s.off + s.dataLen = size) :
    Throughout (lv2Round data) (Inside data size) s ↔ NeverSeven data s.off s.dataLen := by
  induction hn : s.dataLen using Nat.strongRecOn generalizing s with
  | _ n ih =>
    subst hn
    rw [neverSeven_iff]
    by_cases h6 : 6 < s.dataLen
    case neg =>
      rw [WhileLoop.throughout_leave (lv2Round_stop (by omega))]
      have hinside : Inside data size s :=
        ⟨hrest, by simp [roundTakes, h6], by simp [roundReads, h6]⟩
      exact ⟨fun _ => ⟨by omega, fun h => absurd h h6⟩, fun _ => hinside⟩
    -- a round that looks up a length is inside if the 8 bytes are there
    have hinside : Inside data size s ↔ s.dataLen ≠ 7 := by
      constructor
      · intro h
        have hhead := (headReads_le_iff data s.off size).mp fun r hr => h.reads r (by
          simp only [roundReads, if_pos h6, if_pos hg]
          exact List.mem_append_left _ hr)
        omega
      · intro h7
        refine ⟨hrest, ?_, fun r hr => ?_⟩
        · simp only [roundTakes, if_pos h6, if_pos hg]
          split <;> omega
        · simp only [roundReads, if_pos h6, if_pos hg] at hr
          rcases List.mem_append.mp hr with hr | hr
          · exact (headReads_le_iff data s.off size).mpr (by omega) r hr
          · split at hr
            · split at hr
              · simp only [List.mem_singleton] at hr
                subst hr
                dsimp only
                omega
              · simp only [List.mem_singleton] at hr
                subst hr
                dsimp only
                omega
            · cases hr
    rcases Nat.eq_zero_or_pos (getCurReadMsgLength (data.shift s.off)) with hl | hpos
    · rw [WhileLoop.throughout_leave (lv2Round_unknown h6 hg hl), hinside]
      simp [hl]
    obtain ⟨len, hlen⟩ : ∃ len, getCurReadMsgLength (data.shift s.off) = len := ⟨_, rfl⟩
    rw [hlen] at hpos ⊢
    by_cases hle : len ≤ s.dataLen
    · have hnext := ih (s.dataLen - len) (by omega)
        ⟨s.off + len, s.dataLen - len, len, s.half, s.msgs ++ [data.slice s.off len]⟩ hg
        (by dsimp only; omega) rfl
      rw [WhileLoop.throughout_next (lv2Round_whole h6 hg hlen hpos hle), hinside, hnext]
      simp [h6, hpos, hle]
    · rw [WhileLoop.throughout_leave (lv2Round_half h6 hg hlen (Nat.not_le.mp hle)), hinside]
      simp [hle]

/-- The round that completes a half packet. -/
theorem inside_fill_iff {data : Mem} {size : Nat} {s : LoopState} (h6 : 6 < s.dataLen) (hg : 0 < s.half.halfSize)
    (hl : s.msgLen = 0) (hrest : s.off + s.dataLen = size) :
    Inside data size s ↔ s.half.missSize ≤ s.dataLen := by
  have htakes : roundTakes data s = s.half.missSize := by
    rw [roundTakes, if_pos h6, if_neg (by omega), if_neg (by omega)]
  have hreads : roundReads data s = [(s.off, s.half.missSize)] := by
    rw [roundReads, if_pos h6, if_neg (by omega), if_neg (by omega)]
  constructor
  · intro h
    exact htakes ▸ h.takes
  · intro h
    refine ⟨hrest, htakes ▸ h, fun r hr => ?_⟩
    rw [hreads, List.mem_singleton] at hr
    subst hr
    dsimp only
    omega

/-- The round that drops one reads nothing. -/
theorem inside_discard {data : Mem} {size : Nat} {s : LoopState} (h6 : 6 < s.dataLen) (hg : 0 < s.half.halfSize)
    (hl : 0 < s.msgLen) (hrest : s.off + s.dataLen = size) : Inside data size s := by
  refine ⟨hrest, ?_, ?_⟩
  · simp [roundTakes, h6, hl, Nat.ne_of_gt hg]
  · simp [roundReads, h6, hl, Nat.ne_of_gt hg]

theorem staysInside_iff (config : NetConfig) (g : HalfPacket) (inputdata : Seg) (net : NetConfig) :
    StaysInside config g inputdata net ↔ (config.Accepts net → Fits g inputdata) := by
  refine imp_congr_right fun _ => ?_
  rw [headReads_le_iff]
  by_cases h8 : 8 ≤ inputdata.bytes.length
  case neg => exact ⟨fun h => absurd h.1 (by omega), fun h => absurd h.head h8⟩
  have h6 : 6 < (LoopState.enter g inputdata).dataLen := by
    dsimp only [LoopState.enter]
    omega
  have hrest : (LoopState.enter g inputdata).off + (LoopState.enter g inputdata).dataLen =
      inputdata.bytes.length := Nat.zero_add _
  have hfits : ∀ k, fills g inputdata.mem = k →
      (Fits g inputdata ↔
        k ≤ inputdata.bytes.length ∧ NeverSeven inputdata.mem k (inputdata.bytes.length - k)) := by
    rintro k rfl
    exact ⟨fun h => ⟨h.fills, h.rest⟩, fun h => ⟨h8, h.1, h.2⟩⟩
  rw [Nat.zero_add, and_iff_right h8]
  rcases Nat.eq_zero_or_pos g.halfSize with hg | hg
  · rw [throughout_idle _ hg hrest, hfits 0 (by simp [fills, hg])]
    simp [LoopState.enter]
  rcases Nat.eq_zero_or_pos (getCurReadMsgLength inputdata.mem) with hl | hl
  · -- the half packet is completed, with what is there or not
    rw [hfits g.missSize (by simp [fills, hg, hl]),
      WhileLoop.throughout_next (lv2Round_fill h6 hg hl rfl), inside_fill_iff h6 hg hl hrest]
    refine and_congr_right fun hmiss => ?_
    have hmiss' : g.missSize ≤ inputdata.bytes.length := hmiss
    have hsub : subSize inputdata.bytes.length g.missSize = inputdata.bytes.length - g.missSize := if_pos hmiss'
    rw [throughout_idle _ rfl]
    · simp [LoopState.enter, hsub]
    · simp only [LoopState.enter, hsub]
      omega
  · have hidle := @throughout_idle inputdata.mem _ { LoopState.enter g inputdata with half := .start } rfl hrest
    rw [hfits 0 (by simp [fills, Nat.ne_of_gt hl]), WhileLoop.throughout_next (lv2Round_discard h6 hg hl),
      and_iff_right (inside_discard h6 hg hl hrest), hidle]
    simp [LoopState.enter]

/-! ## Runs -/

/-- The calls for the segments of a run. -/
def machine (config : NetConfig) : Machine HalfPacket (Seg × NetConfig) where
  init g := g = HalfPacket.start
  step g l := some (lv2Handler config g l.1 l.2).2

/-- **Exact condition.** In a run from the start every call stays inside its segment if and
only if every segment taken fits the half packet it meets. -/
theorem along_staysInside_iff (config : NetConfig) (ls : List (Seg × NetConfig)) :
    (machine config).Along (fun g l => StaysInside config g l.1 l.2) .start ls ↔
      (machine config).Along (fun g l => config.Accepts l.2 → Fits g l.1) .start ls := by
  simp only [staysInside_iff]

/-- The first 8 bytes of a message of type `'5'`, then 8 bytes that are no head. -/
def shortTail : List (Seg × NetConfig) :=
  [(⟨0x35 :: List.replicate 7 0, fun _ => 0⟩, ⟨0, 0, 0⟩), (⟨List.replicate 8 0, fun _ => 0⟩, ⟨0, 0, 0⟩)]

/-- **Counterexample.** The missing 96 bytes are copied out of the second segment; nor does
a call with a segment of one byte stay inside it. -/
theorem shortTail_left :
    (¬ ∀ config ls, (machine config).Along (fun g l => StaysInside config g l.1 l.2) .start ls) ∧
      ¬ ∀ config g inputdata net, inputdata.bytes ≠ [] → StaysInside config g inputdata net := by
  constructor
  · intro h
    have hlen : getCurReadMsgLength (Seg.mem ⟨0x35 :: List.replicate 7 0, fun _ => 0⟩) = 104 := by decide
    obtain ⟨-, hrest⟩ := h ⟨0, 0, 0⟩ shortTail
    have hsecond := (hrest _ rfl).1
    rw [lv2Handler, if_pos (by decide), lv2Loop_half (by decide) rfl (by rw [hlen]; decide), hlen,
      staysInside_iff] at hsecond
    have hfills := (hsecond (by decide)).fills
    rw [fills, if_pos ⟨by decide, by decide⟩] at hfills
    exact absurd hfills (by decide)
  · intro h
    have hone := h ⟨0, 0, 0⟩ .start ⟨[0x35], fun _ => 0⟩ ⟨0, 0, 0⟩ (by decide)
    rw [staysInside_iff] at hone
    exact absurd (hone (by decide)).head (by decide)

end MdInfoSet.L2.Lv2Rounds
