import MdInfoSet.L2Machine.Lv1Termination

/-!
# The copies into the half buffer

`GFEXQuota::OnData_lv1` (src/dz_gfex_md/src/dz_gfex_md.cpp:940-1155) keeps what is not a
whole message in `m_half_buffer`. A `Copy` is one `memcpy` into it; `callCopies` lists
those of a call, stage by stage, and `onDataLv1_replays` says that they make the half
buffer the model has after the call.
-/
namespace MdInfoSet.L2.Lv1Copies

open MdInfoSet.L1.Lv1Head MdInfoSet.L2.Lv2Handler MdInfoSet.L2.Lv1Handler MdInfoSet.L2.Lv1Termination

/-! ## The copies of a call -/

/-- `memcpy(m_half_buffer + dst, data + src, len)` -/
structure Copy where
  dst : Nat
  src : Nat
  len : Nat

/-- `sizeof(m_half_buffer)` -/
def halfBufferSize : Nat := 1024

/-- The copy ends within the buffer, and is out of the `size` bytes of the segment. -/
structure Copy.InBounds (size : Nat) (c : Copy) : Prop where
  dst : c.dst + c.len ≤ halfBufferSize
  src : c.src + c.len ≤ size

/-- The buffer after some copies out of `data`. -/
def replay (data buffer : Mem) (copies : List Copy) : Mem :=
  copies.foldl (fun buffer c => buffer.memcpy c.dst (data.shift c.src) c.len) buffer

@[simp] theorem replay_nil (data buffer : Mem) : replay data buffer [] = buffer := rfl

@[simp] theorem replay_cons (data buffer : Mem) (c : Copy) (cs : List Copy) :
    replay data buffer (c :: cs) = replay data (buffer.memcpy c.dst (data.shift c.src) c.len) cs := rfl

theorem replay_append (data buffer : Mem) (cs cs' : List Copy) :
    replay data buffer (cs ++ cs') = replay data (replay data buffer cs) cs' := List.foldl_append

/-- The copies make `g'` of `g`: the bytes used are none, those before, or up to where a
copy ends. -/
structure Replays (data : Mem) (g g' : HalfBuffer) (copies : List Copy) : Prop where
  buffer : g'.buffer = replay data g.buffer copies
  used : g'.used = 0 ∨ g'.used = g.used ∨ ∃ c ∈ copies, g'.used = c.dst + c.len

/-- cpp:1004-1006 -/
def headCopies (g : HalfBuffer) (re : Int) : List Copy :=
  if g.used < 60 then [⟨g.used, 0, asSize (min 60 re)⟩] else []

/-- A record of `total` bytes is completed, or grows. -/
def fillCopies (used : Nat) (re : Int) (total : Nat) : List Copy :=
  let need := subSize total used
  if asSize re < need then [⟨used, 0, asSize re⟩] else [⟨used, 0, need⟩]

/-- The length of the record at the front of the half buffer, from which `need` is computed. -/
def recordLen (buffer : Mem) : Option Nat :=
  match getCommonHeadType buffer sizeofCommonHead with
  | some (.index, _) => some sizeofCommonHead
  | type =>
    if HasMark buffer then some sizeofCodeMappingInfo
    else match type with
      | some (.time, _) => some ((CommonHead.ofMem buffer).qLen + sizeofCommonHead)
      | some (.arbitrage, qLen) => some (qLen + sizeofCommonHead)
      | some (.quota, _) => some ((CommonHead.ofMem buffer).qLen + sizeofCommonHead)
      | _ => none

/-- An index head is completed without a look at `re_msg_len`. -/
def IsIndex (buffer : Mem) : Prop := ∃ qLen, getCommonHeadType buffer sizeofCommonHead = some (.index, qLen)

/-- cpp:1003-1073 -/
def halfCopies (g : HalfBuffer) (start : Mem) (re : Int) : List Copy :=
  let buffer := copyHead g start re
  headCopies g re ++
    match getCommonHeadType buffer sizeofCommonHead with
    | some (.index, _) => [⟨g.used, 0, subSize sizeofCommonHead g.used⟩]
    | _ => match recordLen buffer with
      | some total => fillCopies g.used re total
      | none => []

/-- cpp:1089-1153, from the byte at `off` on. -/
def loopCopies (data : Mem) (off re : Nat) : List Copy :=
  if re = 0 then []
  else
    let start := data.shift off
    let type := getCommonHeadType start re
    if isPart start re type then [⟨0, off, re⟩]
    else
      let skip := indexLen type
      if HasMark (start.shift skip) ∧ sizeofCodeMappingInfo ≤ re - skip then
        loopCopies data (off + (skip + sizeofCodeMappingInfo)) (re - (skip + sizeofCodeMappingInfo))
      else match type with
        | some (.time, qLen) | some (.quota, qLen) =>
          loopCopies data (off + (qLen + sizeofCommonHead)) (re - (qLen + sizeofCommonHead))
        | some (.arbitrage, _) => []
        | _ => [⟨0, off + skip, re - skip⟩]
termination_by re
decreasing_by all_goals simp only [sizeofCommonHead, sizeofCodeMappingInfo]; omega

/-- The last two stages, from the byte at `off` on. -/
def parseCopies (data : Mem) (off : Nat) (re : Int) : List Copy :=
  let left := (lv1Scan (data.shift off) re.toNat).2
  loopCopies data (off + (re.toNat - left)) left

/-- The call has a half message to complete: no head or mark begins the segment. -/
def Resumes (g : HalfBuffer) (data : Seg) : Prop :=
  0 < g.used ∧ getCommonHeadType data.mem (asSize (asInt32 data.bytes.length)) = none ∧ ¬ HasMark data.mem

/-- The call takes the segment and it is no login message. -/
def Takes (config : NetConfig) (data : Seg) (net : NetConfig) : Prop :=
  config.Accepts net ∧ ¬ isLogin data.mem data.bytes.length

instance (g : HalfBuffer) (data : Seg) : Decidable (Resumes g data) := by unfold Resumes; infer_instance

instance (config : NetConfig) (data : Seg) (net : NetConfig) : Decidable (Takes config data net) := by
  unfold Takes; infer_instance

/-- The copies of one call, in order. -/
def callCopies (config : NetConfig) (g : HalfBuffer) (data : Seg) (net : NetConfig) : List Copy :=
  if Takes config data net then
    let re := asInt32 data.bytes.length
    let skip := indexLen (getCommonHeadType data.mem (asSize re))
    if Resumes g data then
      halfCopies g data.mem re ++
        match halfNeed g data.mem re with
        | none => []
        | some need => parseCopies data.mem need (asInt32 (re - need))
    else parseCopies data.mem skip (re - skip)
  else []

/-! ## They are the model's -/

/-- The buffer after the half stage. -/
def HalfResult.buffer : HalfResult → Mem
  | .more g => g.buffer
  | .done _ _ buffer => buffer

theorem copyHead_replay (g : HalfBuffer) (data : Mem) (re : Int) :
    copyHead g data re = replay data g.buffer (headCopies g re) := by
  unfold copyHead headCopies
  split
  · simp
  · rfl

theorem fillHalf_replay (used : Nat) (buffer data : Mem) (re : Int) (total : Nat) (calls : Mem → List Call) :
    HalfResult.buffer (fillHalf used buffer data re total calls) =
      replay data buffer (fillCopies used re total) := by
  unfold fillHalf fillCopies
  dsimp only
  split
  · simp [HalfResult.buffer]
  · simp [HalfResult.buffer]

/-- The longest record, an arbitrage message: its head and 255 + 256 bytes. -/
def maxRecordLen : Nat := 535

/-- What the half stage does with the record at the front of the half buffer. -/
inductive HalfCase (g : HalfBuffer) (data : Mem) (re : Int) : Prop where
  | index (hlen : recordLen (copyHead g data re) = some sizeofCommonHead)
    (hindex : IsIndex (copyHead g data re))
    (hcopies : halfCopies g data re = headCopies g re ++ [⟨g.used, 0, subSize sizeofCommonHead g.used⟩])
    (hstage : halfStage g data re = .done [] (subSize sizeofCommonHead g.used)
      ((copyHead g data re).memcpy g.used data (subSize sizeofCommonHead g.used)))
  | record (total : Nat) (calls : Mem → List Call) (hlen : recordLen (copyHead g data re) = some total)
    (hindex : ¬ IsIndex (copyHead g data re)) (hle : total ≤ maxRecordLen)
    (hcopies : halfCopies g data re = headCopies g re ++ fillCopies g.used re total)
    (hstage : halfStage g data re = fillHalf g.used (copyHead g data re) data re total calls)
  | unknown (hlen : recordLen (copyHead g data re) = none) (hindex : ¬ IsIndex (copyHead g data re))
    (hcopies : halfCopies g data re = headCopies g re)
    (hstage : halfStage g data re = .done [] 0 (copyHead g data re))

/-- `q_len` is a byte, and `TYPE_ARBITRAGE` adds 256 to it. -/
theorem qLen_lt {d : Mem} {len qLen : Nat} {type : HeadType}
    (h : getCommonHeadType d len = some (type, qLen)) : qLen < 512 := by
  have h23 := (d 23).toNat_lt
  unfold getCommonHeadType at h
  dsimp only [CommonHead.ofMem] at h
  repeat' split at h
  all_goals cases h
  all_goals omega

theorem half_cases (g : HalfBuffer) (data : Mem) (re : Int) : HalfCase g data re := by
  cases htype : getCommonHeadType (copyHead g data re) sizeofCommonHead with
  | none =>
    by_cases hmark : HasMark (copyHead g data re)
    · refine .record sizeofCodeMappingInfo (fun msg => [.code2Index (msg.slice 0 sizeofCodeMappingInfo)])
        ?_ ?_ (by decide) ?_ ?_
      · simp only [recordLen, htype, if_pos hmark]
      · simp [IsIndex, htype]
      · simp only [halfCopies, recordLen, htype, if_pos hmark]
      · simp only [halfStage, htype, if_pos hmark]
    · refine .unknown ?_ ?_ ?_ ?_
      · simp only [recordLen, htype, if_neg hmark]
      · simp [IsIndex, htype]
      · simp only [halfCopies, recordLen, htype, if_neg hmark, List.append_nil]
      · simp only [halfStage, htype, if_neg hmark]
  | some x =>
    obtain ⟨type, qLen⟩ := x
    have hmark := not_hasMark htype
    have hlt := qLen_lt htype
    have hle : qLen + sizeofCommonHead ≤ maxRecordLen := by
      unfold sizeofCommonHead maxRecordLen
      omega
    cases type with
    | index =>
      refine .index ?_ ⟨qLen, htype⟩ ?_ ?_
      · simp only [recordLen, htype]
      · simp only [halfCopies, htype]
      · simp only [halfStage, htype]
    | arbitrage =>
      refine .record (qLen + sizeofCommonHead) (fun _ => []) ?_ ?_ hle ?_ ?_
      · simp only [recordLen, htype, if_neg hmark]
      · simp [IsIndex, htype]
      · simp only [halfCopies, recordLen, htype, if_neg hmark]
      · simp only [halfStage, htype, if_neg hmark]
    | time =>
      have hq := getCommonHeadType_qLen htype (by decide)
      refine .record (qLen + sizeofCommonHead) timeCalls ?_ ?_ hle ?_ ?_
      · simp only [recordLen, htype, if_neg hmark, hq]
      · simp [IsIndex, htype]
      · simp only [halfCopies, recordLen, htype, if_neg hmark, hq]
      · simp only [halfStage, htype, if_neg hmark, hq]
    | quota =>
      have hq := getCommonHeadType_qLen htype (by decide)
      refine .record (qLen + sizeofCommonHead)
        (fun msg => [.quota (msg.slice sizeofCommonHead (CommonHead.ofMem msg).qLen)]) ?_ ?_ hle ?_ ?_
      · simp only [recordLen, htype, if_neg hmark, hq]
      · simp [IsIndex, htype]
      · simp only [halfCopies, recordLen, htype, if_neg hmark, hq]
      · simp only [halfStage, htype, if_neg hmark, hq]

theorem halfStage_replay (g : HalfBuffer) (data : Mem) (re : Int) :
    HalfResult.buffer (halfStage g data re) = replay data g.buffer (halfCopies g data re) := by
  cases half_cases g data re with
  | index hlen hindex hcopies hstage =>
    rw [hcopies, hstage, replay_append, ← copyHead_replay]
    simp [HalfResult.buffer]
  | record total calls hlen hindex hle hcopies hstage =>
    rw [hcopies, hstage, replay_append, ← copyHead_replay]
    exact fillHalf_replay _ _ _ _ _ _
  | unknown hlen hindex hcopies hstage =>
    rw [hcopies, hstage, ← copyHead_replay]
    rfl

/-- A half message that grows is used up to where the last copy ends. -/
theorem halfStage_used {g g' : HalfBuffer} {data : Mem} {re : Int} (h : halfStage g data re = .more g') :
    ∃ c ∈ halfCopies g data re, g'.used = c.dst + c.len := by
  cases half_cases g data re with
  | index hlen hindex hcopies hstage =>
    rw [hstage] at h
    cases h
  | record total calls hlen hindex hle hcopies hstage =>
    rw [hstage] at h
    unfold fillHalf at h
    dsimp only at h
    split at h
    · rename_i hlt
      cases h
      refine ⟨⟨g.used, 0, asSize re⟩, ?_, rfl⟩
      rw [hcopies, fillCopies]
      simp [hlt]
    · cases h
  | unknown hlen hindex hcopies hstage =>
    rw [hstage] at h
    cases h

section Loop

variable {start data : Mem} {off re n : Nat} {g : HalfBuffer}

/-- The loop has bytes left that it passes neither as a message nor gets stuck on. -/
structure Keeps (start : Mem) (re : Nat) : Prop where
  pos : 0 < re
  notArbitrage : ¬ IsArbitrage start re
  notWhole : messageLen start re = none

/-- Then they are less than a message, or nothing known begins there. -/
theorem Keeps.cases (h : Keeps start re) :
    (isPart start re (getCommonHeadType start re) ∧ indexLen (getCommonHeadType start re) = 0) ∨
    ¬ isPart start re (getCommonHeadType start re) ∧
      ¬ (HasMark (start.shift (indexLen (getCommonHeadType start re))) ∧
        sizeofCodeMappingInfo ≤ re - indexLen (getCommonHeadType start re)) ∧
      (getCommonHeadType start re = none ∨ ∃ qLen, getCommonHeadType start re = some (.index, qLen)) := by
  have hlen := h.notWhole
  unfold messageLen at hlen
  dsimp only at hlen
  split at hlen
  · cases hlen
  rename_i hm
  cases htype : getCommonHeadType start re with
  | none =>
    rw [htype] at hm
    by_cases hpart : isPart start re none
    · exact .inl ⟨hpart, rfl⟩
    · exact .inr ⟨hpart, hm, .inl rfl⟩
  | some x =>
    obtain ⟨type, qLen⟩ := x
    have hmark := not_hasMark htype
    rw [htype] at hm hlen
    cases type with
    | index =>
      refine .inr ⟨?_, hm, .inr ⟨qLen, rfl⟩⟩
      have h24 : ¬ re < sizeofCommonHead := fun hlt => by
        rw [getCommonHeadType_short hlt] at htype
        cases htype
      simp [isPart, h24, hmark]
    | arbitrage => exact absurd ⟨qLen, htype⟩ h.notArbitrage
    | time | quota =>
      dsimp only at hlen
      split at hlen
      · cases hlen
      · rename_i hle
        exact .inl ⟨.inr (.inr (Nat.not_le.mp hle)), rfl⟩

theorem lv1Loop_keep (h : Keeps start re) :
    lv1Loop start re g =
      some ([], ⟨re - indexLen (getCommonHeadType start re),
        g.buffer.memcpy 0 (start.shift (indexLen (getCommonHeadType start re)))
          (re - indexLen (getCommonHeadType start re))⟩) := by
  have h0 := h.pos
  rcases h.cases with ⟨hpart, hskip⟩ | ⟨hpart, hm, htype⟩
  · rw [lv1Loop_part h0 hpart, hskip, Mem.shift_zero, Nat.sub_zero]
  · rw [lv1Loop, if_neg (by omega)]
    simp only [if_neg hpart, if_neg hm]
    rcases htype with htype | ⟨qLen, htype⟩ <;> rw [htype]

theorem loopCopies_keep (h : Keeps (data.shift off) re) :
    loopCopies data off re =
      [⟨0, off + indexLen (getCommonHeadType (data.shift off) re),
        re - indexLen (getCommonHeadType (data.shift off) re)⟩] := by
  have h0 := h.pos
  rw [loopCopies, if_neg (by omega)]
  dsimp only
  rcases h.cases with ⟨hpart, hskip⟩ | ⟨hpart, hm, htype⟩
  · rw [if_pos hpart, hskip, Nat.add_zero, Nat.sub_zero]
  · rw [if_neg hpart, if_neg hm]
    rcases htype with htype | ⟨qLen, htype⟩ <;> rw [htype]

theorem loopCopies_pass (h : messageLen (data.shift off) re = some n) :
    loopCopies data off re = loopCopies data (off + n) (re - n) := by
  have hn := messageLen_le h
  have hpart : ¬ isPart (data.shift off) re (getCommonHeadType (data.shift off) re) := fun hp => by
    rw [(isPart_messageLen hp).2] at h
    cases h
  conv => lhs; rw [loopCopies, if_neg (by omega)]
  dsimp only
  rw [if_neg hpart]
  unfold messageLen at h
  dsimp only at h
  split at h
  · rename_i hm
    cases h
    rw [if_pos hm]
  · rename_i hm
    rw [if_neg hm]
    split at h
    · rename_i htype
      split at h <;> cases h
      rw [htype]
    · rename_i htype
      split at h <;> cases h
      rw [htype]
    · cases h

theorem loopCopies_stuck (h : IsArbitrage (data.shift off) re) : loopCopies data off re = [] := by
  have hnone := h.messageLen
  obtain ⟨qLen, htype⟩ := h
  have hmark := not_hasMark htype
  have h24 : ¬ re < sizeofCommonHead := fun hlt => by
    rw [getCommonHeadType_short hlt] at htype
    cases htype
  rw [loopCopies]
  dsimp only
  rw [htype]
  simp [isPart, h24, hmark, indexLen]

theorem lv1Loop_stuck (h : IsArbitrage start re) : lv1Loop start re g = none := by
  have hsome := (lv1Loop_isSome_iff start re g).not_left.mpr (.head h)
  simpa using hsome

theorem lv1Loop_pass (h : messageLen start re = some n) :
    ∃ calls, lv1Loop start re g = (lv1Loop (start.shift n) (re - n) g).map fun r => (calls ++ r.1, r.2) := by
  have hresult := lv1Round_result ⟨[], start, re, g⟩
  generalize lv1Round ⟨[], start, re, g⟩ = round at hresult
  cases hresult with
  | stuck harb =>
    rw [harb.messageLen] at h
    cases h
  | pass m calls hlen hloop =>
    obtain rfl := Option.some.inj (hlen.symm.trans h)
    exact ⟨calls, hloop⟩
  | keep _ _ _ _ hlen | leave _ _ hlen =>
    dsimp only at hlen
    rw [hlen] at h
    cases h

/-- The loop makes these copies. -/
theorem lv1Loop_replays {r : List Call × HalfBuffer} (h : lv1Loop (data.shift off) re g = some r) :
    Replays data g r.2 (loopCopies data off re) := by
  induction hn : re using Nat.strongRecOn generalizing off re r with
  | _ n ih =>
    subst hn
    by_cases h0 : re = 0
    · subst h0
      rw [lv1Loop_zero, Option.some.injEq] at h
      rw [loopCopies, if_pos rfl, ← h]
      exact ⟨rfl, .inr (.inl rfl)⟩
    by_cases harb : IsArbitrage (data.shift off) re
    · rw [lv1Loop_stuck harb] at h
      cases h
    cases hlen : messageLen (data.shift off) re with
    | none =>
      have hkeep : Keeps (data.shift off) re := ⟨by omega, harb, hlen⟩
      rw [lv1Loop_keep hkeep, Option.some.injEq] at h
      rw [loopCopies_keep hkeep, ← h]
      exact ⟨by simp, .inr (.inr ⟨_, List.mem_singleton_self _, (Nat.zero_add _).symm⟩)⟩
    | some n =>
      have hle := messageLen_le hlen
      obtain ⟨calls, hpass⟩ := lv1Loop_pass (g := g) hlen
      rw [hpass] at h
      obtain ⟨r', hr', rfl⟩ := Option.map_eq_some_iff.mp h
      rw [Mem.shift_shift] at hr'
      have hrest := ih (re - n) (by omega) hr' rfl
      rwa [loopCopies_pass hlen]

end Loop

theorem lv1Parse_replays {data : Mem} {off : Nat} {re : Int} {g : HalfBuffer} {r : List Call × HalfBuffer}
    (h : lv1Parse (data.shift off) re g = some r) :
    Replays data g r.2 (parseCopies data off re) := by
  obtain ⟨n, hfirst, hscan⟩ := lv1Scan_firstShown (data.shift off) re.toNat
  have hle := hfirst.le
  rw [lv1Parse, hscan, Mem.shift_shift] at h
  dsimp only at h
  rw [parseCopies, hscan]
  dsimp only
  rw [show re.toNat - (re.toNat - n) = n by omega]
  exact lv1Loop_replays h

section Call

variable {config net : NetConfig} {g : HalfBuffer} {data : Seg}

theorem onDataLv1_skip (h : ¬ Takes config data net) : onDataLv1 config g data net = some ([], g) := by
  unfold onDataLv1
  dsimp only
  by_cases hnet : config.Accepts net
  · rw [if_neg (not_not.mpr hnet), if_pos (not_not.mp fun hlogin => h ⟨hnet, hlogin⟩)]
  · rw [if_pos hnet]

/-- Without a half message to complete, one that is there is forgotten. -/
theorem onDataLv1_fresh (h : Takes config data net) (hres : ¬ Resumes g data) {re : Int}
    (hre : asInt32 data.bytes.length = re) {skip : Nat}
    (hskip : indexLen (getCommonHeadType data.mem (asSize re)) = skip) :
    onDataLv1 config g data net = lv1Parse (data.mem.shift skip) (re - skip) { g with used := 0 } := by
  subst hre hskip
  unfold onDataLv1
  dsimp only
  rw [if_neg (not_not.mpr h.1), if_neg h.2]
  generalize hre : asInt32 data.bytes.length = re
  by_cases hshown : (getCommonHeadType data.mem (asSize re)).isSome ∨ HasMark data.mem
  · rw [if_pos hshown, if_neg (Nat.lt_irrefl 0)]
  · obtain ⟨hhead, hmark⟩ := not_or.mp hshown
    rw [Option.not_isSome_iff_eq_none, ← hre] at hhead
    have hused : g.used = 0 := Nat.eq_zero_of_not_pos fun hpos => hres ⟨hpos, hhead, hmark⟩
    rw [if_neg hshown, if_neg (by omega), ← hused]

theorem onDataLv1_resumes (h : Takes config data net) (hres : Resumes g data) {re : Int}
    (hre : asInt32 data.bytes.length = re) :
    onDataLv1 config g data net =
      match halfStage g data.mem re with
      | .more g' => some ([], g')
      | .done calls need buffer =>
        (lv1Parse (data.mem.shift need) (asInt32 (re - need)) ⟨0, buffer⟩).map fun r => (calls ++ r.1, r.2) := by
  subst hre
  obtain ⟨hused, hhead, hmark⟩ := hres
  unfold onDataLv1
  dsimp only
  have hshown : ¬ ((none : Option (HeadType × Nat)).isSome ∨ HasMark data.mem) := by simp [hmark]
  rewrite [if_neg (not_not.mpr h.1), if_neg h.2, hhead, if_neg hshown, if_pos hused, indexLen_none, Mem.shift_zero,
    Int.natCast_zero, Int.sub_zero]
  cases halfStage g data.mem (asInt32 data.bytes.length) with
  | more => rfl
  | done => rfl

/-- The copies of a call make the half buffer it leaves. -/
theorem onDataLv1_replays {r : List Call × HalfBuffer} (h : onDataLv1 config g data net = some r) :
    Replays data.mem g r.2 (callCopies config g data net) := by
  unfold callCopies
  dsimp only
  by_cases htakes : Takes config data net
  case neg =>
    rw [onDataLv1_skip htakes, Option.some.injEq] at h
    rw [if_neg htakes, ← h]
    exact ⟨rfl, .inr (.inl rfl)⟩
  rw [if_pos htakes]
  generalize hre : asInt32 data.bytes.length = re
  by_cases hres : Resumes g data
  case neg =>
    rw [onDataLv1_fresh htakes hres hre rfl] at h
    have hparse := lv1Parse_replays h
    rw [if_neg hres]
    exact ⟨hparse.buffer, hparse.used.elim .inl fun hu => hu.elim .inl fun hc => .inr (.inr hc)⟩
  rw [onDataLv1_resumes htakes hres hre] at h
  rw [if_pos hres]
  have hhalf := halfStage_replay g data.mem re
  have hneed := halfStage_need g data.mem re
  cases hstage : halfStage g data.mem re with
  | more g' =>
    rw [hstage] at h hhalf hneed
    rw [← hneed, ← Option.some.inj h]
    simp only [HalfResult.need, List.append_nil]
    exact ⟨hhalf, .inr (.inr (halfStage_used hstage))⟩
  | done calls need buffer =>
    rw [hstage] at h hhalf hneed
    obtain ⟨r', hr', rfl⟩ := Option.map_eq_some_iff.mp h
    have hparse := lv1Parse_replays hr'
    rw [← hneed]
    simp only [HalfResult.need]
    constructor
    · rw [replay_append, ← hhalf]
      exact hparse.buffer
    · rcases hparse.used with hu | hu | ⟨c, hc, hu⟩
      · exact .inl hu
      · exact .inl hu
      · exact .inr (.inr ⟨c, List.mem_append_right _ hc, hu⟩)

end Call

end MdInfoSet.L2.Lv1Copies
