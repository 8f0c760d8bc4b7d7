import MdInfoSet.L2Machine.Lv2Rounds

/-!
# The half packet of the Level-2 receive handler

Between two calls `GFEXQuota::Lv2Handler` (src/dz_gfex_md/src/dz_gfex_md.cpp:323-413) keeps the
rest of a segment in `g_extern_msg_buffer`, with its length in `g_half_size` and what the
message misses in `g_miss_size`. The loop writes them in three places: it drops a half packet
in front of what looks like a message, hands on a completed one, and keeps a new one.

* `idle_ends`: without a half packet the loop leaves them alone, or keeps the last bytes of its
  segment.
* `lv2Handler_half`: what one call does to them.
* `half_packet_run`: over a run there is none, or it is the end of the segment that started it,
  and with what it misses as long as a message.
-/
namespace MdInfoSet.L2.Lv2HalfPacket

open MdInfoSet.L1.Lv2Frame MdInfoSet.L2.Lv2Handler MdInfoSet.L2.Lv2Rounds
open MdInfoSet.WhileLoop (Ends Visits)

/-! ## Calls -/

/-- The round that keeps the rest of the segment (cpp:371-377). -/
def Saves (data : Mem) (s : LoopState) : Prop :=
  6 < s.dataLen ∧ s.half.halfSize = 0 ∧ s.dataLen < getCurReadMsgLength (data.shift s.off)

/-- The call starts a half packet. -/
def StartsHalf (config : NetConfig) (g : HalfPacket) (inputdata : Seg) (net : NetConfig) : Prop :=
  config.Accepts net ∧ ∃ s, Visits (lv2Round inputdata.mem) (.enter g inputdata) s ∧ Saves inputdata.mem s

/-- The call completes the half packet, with bytes of its segment or of what is behind it. -/
def Completes (config : NetConfig) (g : HalfPacket) (inputdata : Seg) (net : NetConfig) : Prop :=
  config.Accepts net ∧ 6 < inputdata.bytes.length ∧ 0 < g.halfSize ∧ getCurReadMsgLength inputdata.mem = 0

/-- A completing segment carries what is missing. -/
def CarriesMissing (config : NetConfig) (g : HalfPacket) (l : Seg × NetConfig) : Prop :=
  Completes config g l.1 l.2 → g.missSize ≤ l.1.bytes.length

/-- In the run on `ls` the last call that started a half packet was the one with `inputdata`. -/
inductive StartedBy (config : NetConfig) : List (Seg × NetConfig) → Seg → Prop where
  | here {ls : List (Seg × NetConfig)} {g : HalfPacket} {inputdata : Seg} {net : NetConfig}
    (run : (machine config).run .start ls = some g) (starts : StartsHalf config g inputdata net) :
    StartedBy config (ls ++ [(inputdata, net)]) inputdata
  | later {ls : List (Seg × NetConfig)} {g : HalfPacket} {inputdata : Seg} {l : Seg × NetConfig}
    (before : StartedBy config ls inputdata) (run : (machine config).run .start ls = some g)
    (starts : ¬ StartsHalf config g l.1 l.2) : StartedBy config (ls ++ [l]) inputdata

/-- The half packet is the end of the segment, and misses what makes it a message. -/
structure HalfOf (g : HalfPacket) (inputdata : Seg) : Prop where
  half_gt : 6 < g.halfSize
  miss_pos : 0 < g.missSize
  length : ∃ data, getCurReadMsgLength data = g.halfSize + g.missSize
  size_le : g.halfSize + g.missSize ≤ 676
  half_le : g.halfSize ≤ inputdata.bytes.length
  bytes : g.buffer.slice 0 g.halfSize = inputdata.bytes.drop (inputdata.bytes.length - g.halfSize)

/-! ## Without a half packet -/

/-- The last bytes of a segment, as a copy of them holds them. -/
theorem slice_rest {inputdata : Seg} {off n : Nat} (h : off + n = inputdata.bytes.length) :
    inputdata.mem.slice off n = inputdata.bytes.drop (inputdata.bytes.length - n) := by
  have hstarts := inputdata.mem_starts
  rw [← List.take_append_drop off inputdata.bytes] at hstarts
  have hlen : (inputdata.bytes.take off).length = off := by rw [List.length_take]; omega
  have hrest := hstarts.right.slice_zero
  rw [hlen, List.length_drop, Mem.slice_shift] at hrest
  rw [show inputdata.bytes.length - n = off by omega, ← hrest]
  congr 1
  omega

/-- The loop without a half packet: no round saves one, or the last round does. -/
theorem idle_ends {data : Mem} {size : Nat} {r : List Bytes × HalfPacket} (s : LoopState) (hg : s.half.halfSize = 0)
    (hrest : s.off + s.dataLen = size) (hends : Ends (lv2Round data) s r) :
    ((∀ t, Visits (lv2Round data) s t → ¬ Saves data t) ∧ r.2 = s.half) ∨
    ∃ t, Visits (lv2Round data) s t ∧ Saves data t ∧ t.off + t.dataLen = size ∧
      r.2 = ⟨t.dataLen, getCurReadMsgLength (data.shift t.off) - t.dataLen,
        s.half.buffer.memcpy 0 (data.shift t.off) t.dataLen⟩ := by
  induction hn : s.dataLen using Nat.strongRecOn generalizing s with
  | _ n ih =>
    subst hn
    by_cases h6 : 6 < s.dataLen
    case neg =>
      have hleave := @lv2Round_stop data s (Nat.not_lt.mp h6)
      refine .inl ⟨fun t ht => ?_, ?_⟩
      · rw [(WhileLoop.visits_leave hleave).mp ht]
        exact fun h => h6 h.1
      · rw [(WhileLoop.ends_leave hleave).mp hends]
    obtain ⟨len, hlen⟩ : ∃ len, getCurReadMsgLength (data.shift s.off) = len := ⟨_, rfl⟩
    by_cases hgt : s.dataLen < len
    · have hleave := lv2Round_half h6 hg hlen hgt
      refine .inr ⟨s, .here s, ⟨h6, hg, hlen ▸ hgt⟩, hrest, ?_⟩
      rw [(WhileLoop.ends_leave hleave).mp hends, hlen]
    have hself : ¬ Saves data s := fun h => hgt (hlen ▸ h.2.2)
    rcases Nat.eq_zero_or_pos len with rfl | hpos
    · have hleave := lv2Round_unknown h6 hg hlen
      refine .inl ⟨fun t ht => ?_, ?_⟩
      · rw [(WhileLoop.visits_leave hleave).mp ht]
        exact hself
      · rw [(WhileLoop.ends_leave hleave).mp hends]
    · have hnext := lv2Round_whole h6 hg hlen hpos (Nat.not_lt.mp hgt)
      have hrec := ih (s.dataLen - len) (by omega)
        ⟨s.off + len, s.dataLen - len, len, s.half, s.msgs ++ [data.slice s.off len]⟩ hg
        (by dsimp only; omega) ((WhileLoop.ends_next hnext).mp hends) rfl
      rcases hrec with ⟨hno, hr⟩ | ⟨t, hvisit, hrec⟩
      · refine .inl ⟨fun t ht => ?_, hr⟩
        rcases (WhileLoop.visits_next hnext).mp ht with rfl | ht
        · exact hself
        · exact hno t ht
      · exact .inr ⟨t, .next hnext hvisit, hrec⟩

/-! ## One call -/

section Call

variable {config net : NetConfig} {g : HalfPacket} {inputdata : Seg}

/-- A call that gets to a state without a half packet before it saves one. -/
theorem call_of_idle (hnet : config.Accepts net) {s : LoopState}
    (hvisit : Visits (lv2Round inputdata.mem) (.enter g inputdata) s) (hg : s.half.halfSize = 0)
    (hmiss : s.half.missSize = 0) (hrest : s.off + s.dataLen = inputdata.bytes.length)
    (hfirst : ∀ t, Visits (lv2Round inputdata.mem) (.enter g inputdata) t → Saves inputdata.mem t →
      Visits (lv2Round inputdata.mem) s t) :
    (¬ StartsHalf config g inputdata net ∧ (lv2Handler config g inputdata net).2.halfSize = 0 ∧
        (lv2Handler config g inputdata net).2.missSize = 0) ∨
      StartsHalf config g inputdata net ∧ HalfOf (lv2Handler config g inputdata net).2 inputdata := by
  have hends : Ends (lv2Round inputdata.mem) (.enter g inputdata) (lv2Handler config g inputdata net) := by
    rw [lv2Loop_ends, lv2Handler, if_pos hnet]
    simp [LoopState.enter]
  rcases idle_ends s hg hrest ((WhileLoop.ends_of_visits hvisit).mp hends) with
    ⟨hno, hr⟩ | ⟨t, ht, hsaves, hsize, hr⟩
  · rw [hr]
    refine .inl ⟨?_, hg, hmiss⟩
    rintro ⟨-, t, ht, hsaves⟩
    exact hno t (hfirst t ht hsaves) hsaves
  · have hle := getCurReadMsgLength_le (inputdata.mem.shift t.off)
    obtain ⟨h6, -, hgt⟩ := id hsaves
    rw [hr]
    refine .inr ⟨⟨hnet, t, hvisit.trans ht, hsaves⟩, h6, ?_, ⟨inputdata.mem.shift t.off, ?_⟩, ?_, ?_, ?_⟩
    · exact Nat.sub_pos_of_lt hgt
    · dsimp only
      omega
    · dsimp only
      omega
    · dsimp only
      omega
    · dsimp only
      rw [Mem.slice_memcpy, Mem.slice_shift, slice_rest hsize]

/-- What one call does, if it carries what a half packet that it completes misses. -/
theorem lv2Handler_half (hzero : g.halfSize = 0 → g.missSize = 0)
    (hok : CarriesMissing config g (inputdata, net)) :
    (¬ StartsHalf config g inputdata net ∧ (lv2Handler config g inputdata net).2 = g ∨
      ¬ StartsHalf config g inputdata net ∧ (lv2Handler config g inputdata net).2.halfSize = 0 ∧
        (lv2Handler config g inputdata net).2.missSize = 0) ∨
      StartsHalf config g inputdata net ∧ HalfOf (lv2Handler config g inputdata net).2 inputdata := by
  by_cases hnet : config.Accepts net
  case neg => exact .inl (.inl ⟨fun h => hnet h.1, by rw [lv2Handler, if_neg hnet]⟩)
  by_cases h6 : 6 < inputdata.bytes.length
  case neg =>
    -- the loop is not entered
    have hleave : lv2Round inputdata.mem (.enter g inputdata) = .leave ([], g) := lv2Round_stop (Nat.not_lt.mp h6)
    refine .inl (.inl ⟨?_, ?_⟩)
    · rintro ⟨-, t, ht, hsaves⟩
      rw [(WhileLoop.visits_leave hleave).mp ht] at hsaves
      exact h6 hsaves.1
    · rw [lv2Handler, if_pos hnet, lv2Loop_stop (Nat.not_lt.mp h6)]
  rw [or_assoc]
  right
  rcases Nat.eq_zero_or_pos g.halfSize with hg | hg
  · exact call_of_idle hnet (.here _) hg (hzero hg) (Nat.zero_add _) fun t ht _ => ht
  -- with a half packet the first round drops or completes it
  have hself (t : LoopState) (ht : t = .enter g inputdata) (hsaves : Saves inputdata.mem t) : False := by
    subst ht
    exact Nat.ne_of_gt hg hsaves.2.1
  rcases Nat.eq_zero_or_pos (getCurReadMsgLength inputdata.mem) with hl | hl
  · have hmiss : g.missSize ≤ inputdata.bytes.length := hok ⟨hnet, h6, hg, hl⟩
    have hnext := @lv2Round_fill inputdata.mem (.enter g inputdata) h6 hg hl _ rfl
    refine call_of_idle hnet (.next hnext (.here _)) rfl rfl ?_ fun t ht hsaves => ?_
    · have hsub : subSize inputdata.bytes.length g.missSize = inputdata.bytes.length - g.missSize := if_pos hmiss
      simp only [LoopState.enter, hsub]
      omega
    · exact ((WhileLoop.visits_next hnext).mp ht).resolve_left fun h => hself t h hsaves
  · have hnext := @lv2Round_discard inputdata.mem (.enter g inputdata) h6 hg hl
    refine call_of_idle hnet (.next hnext (.here _)) rfl rfl (Nat.zero_add _) fun t ht hsaves => ?_
    exact ((WhileLoop.visits_next hnext).mp ht).resolve_left fun h => hself t h hsaves

end Call

/-! ## Runs -/

/-- Between two calls. -/
def HalfInv (config : NetConfig) (ls : List (Seg × NetConfig)) (g : HalfPacket) : Prop :=
  g.halfSize = 0 ∧ g.missSize = 0 ∨ ∃ inputdata, StartedBy config ls inputdata ∧ HalfOf g inputdata

theorem HalfInv.step {config : NetConfig} {ls : List (Seg × NetConfig)} {g : HalfPacket} (h : HalfInv config ls g)
    (hr : (machine config).run .start ls = some g) {l : Seg × NetConfig} (hok : CarriesMissing config g l) :
    HalfInv config (ls ++ [l]) (lv2Handler config g l.1 l.2).2 := by
  have hzero : g.halfSize = 0 → g.missSize = 0 := by
    intro hg
    rcases h with h | ⟨_, -, hhalf⟩
    · exact h.2
    · have := hhalf.half_gt
      omega
  rcases lv2Handler_half hzero hok with (⟨hno, hsame⟩ | ⟨-, hempty⟩) | ⟨hstarts, hhalf⟩
  · rw [hsame]
    exact h.imp_right fun ⟨inputdata, hby, hhalf⟩ => ⟨inputdata, .later hby hr hno, hhalf⟩
  · exact .inl hempty
  · exact .inr ⟨l.1, .here hr hstarts, hhalf⟩

/-- In every run in which a segment that completes a half packet carries what is missing. -/
theorem half_packet_run (config : NetConfig) (ls : List (Seg × NetConfig)) (g : HalfPacket)
    (hok : (machine config).Along (CarriesMissing config) .start ls) (hr : (machine config).run .start ls = some g) :
    g.halfSize = 0 ∧ g.missSize = 0 ∨ ∃ inputdata, StartedBy config ls inputdata ∧ HalfOf g inputdata := by
  have hinv : (machine config).run .start ls = some g ∧
      ((machine config).Along (CarriesMissing config) .start ls → HalfInv config ls g) := by
    refine @Machine.run_history _ _ (machine config) (fun ls g => (machine config).run .start ls = some g ∧
      ((machine config).Along (CarriesMissing config) .start ls → HalfInv config ls g))
      (fun ls g l g' ⟨hrun, hinv⟩ hstep => ⟨?_, fun hok => ?_⟩) .start g ls ⟨rfl, fun _ => .inl ⟨rfl, rfl⟩⟩ hr
    · rw [Machine.run_append, hrun, Option.bind_some, Machine.run, hstep]
      rfl
    · obtain ⟨hbefore, hlast⟩ := Machine.along_append.mp hok
      cases hstep
      exact (hinv hbefore).step hrun (hlast g hrun).1
  exact hinv.2 hok

/-- Ten bytes of a message of type `'5'`, then a segment with the other 94 and 6 bytes more. -/
def completed : List (Seg × NetConfig) :=
  [(⟨0x35 :: List.replicate 9 0, fun _ => 0⟩, ⟨0, 0, 0⟩), (⟨List.replicate 100 0, fun _ => 0⟩, ⟨0, 0, 0⟩)]

theorem half_packet_run_completed : ∃ g, (machine ⟨0, 0, 0⟩).Along (CarriesMissing ⟨0, 0, 0⟩) .start completed ∧
    (machine ⟨0, 0, 0⟩).run .start completed = some g ∧
    (g.halfSize = 0 ∧ g.missSize = 0 ∨ ∃ inputdata, StartedBy ⟨0, 0, 0⟩ completed inputdata ∧ HalfOf g inputdata) := by
  have hlen : getCurReadMsgLength (Seg.mem ⟨0x35 :: List.replicate 9 0, fun _ => 0⟩) = 104 := by decide
  have hok : (machine ⟨0, 0, 0⟩).Along (CarriesMissing ⟨0, 0, 0⟩) .start completed := by
    refine ⟨fun h => absurd h.2.2.1 (by decide), fun g hg => ⟨fun _ => ?_, fun _ _ => trivial⟩⟩
    obtain rfl := Option.some.inj hg
    rw [lv2Handler, if_pos (by decide), lv2Loop_half (by decide) rfl (by rw [hlen]; decide), hlen]
    decide
  exact ⟨_, hok, rfl, half_packet_run _ completed _ hok rfl⟩

end MdInfoSet.L2.Lv2HalfPacket
