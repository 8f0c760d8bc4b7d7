import MdInfoSet.Core.Framing
import MdInfoSet.L2Machine.Lv1Handler

/-!
# Level-1 reassembly

Which cuts of the Level-1 stream `OnData_lv1` puts together again. As for
Level 2 the handler is compared with the ideal reassembler of `Framing`: before
each segment it holds the first `h` bytes of the next message (`Sync`).

* `lv1Loop_stream`: on a piece of the stream that starts with a message the
  main loop makes the calls of the whole messages and keeps the rest.
* `onDataLv1_opens`, `onDataLv1_continues`: one segment, without and with a half message.
* **The condition is enough.** On cuts that are `Clean` the calls are those of the uncut
  stream, the body of each message in order (`same_calls`).
* For a mapping record in two segments it is exact (`mapping_two_segments_iff`).

**Counterexample.** The bytes of a half message are thrown away when the next segment does not
bring enough to recognise it (`held_bytes_thrown_away`).
-/
namespace MdInfoSet.L3.Lv1Reassembly

open MdInfoSet.Framing MdInfoSet.L1.Lv1Head MdInfoSet.L2.Lv2Handler MdInfoSet.L2.Lv1Handler

/-! ## What the handler makes of a message -/

/-- The call for a whole message, if there is one. -/
def callsOf (m : Bytes) : List Call :=
  match getCommonHeadType (Mem.ofBytes m) sizeofCommonHead with
  | some (.time, qLen) => if qLen = 0xfe then [.staticInfo (m.drop sizeofCommonHead)] else []
  | some (.quota, _) => [.quota (m.drop sizeofCommonHead)]
  | _ => if IsMapping m then [.code2Index m] else []

theorem callsOf_mapping {m : Bytes} (h : IsMapping m) : callsOf m = [.code2Index m] := by
  unfold callsOf
  rw [h.not_head]
  exact if_pos h

theorem callsOf_index {m : Bytes} {qLen : Nat}
    (h : getCommonHeadType (Mem.ofBytes m) sizeofCommonHead = some (.index, qLen)) : callsOf m = [] := by
  unfold callsOf
  rw [h]
  exact if_neg (not_hasMark h)

section Body

variable {m : Bytes} {d : Mem} {qLen : Nat}

/-- The body of a message, as the handlers get it. -/
theorem slice_body (hd : d.Starts m) (hlen : m.length = qLen + sizeofCommonHead) :
    d.slice sizeofCommonHead qLen = m.drop sizeofCommonHead := by
  have hsplit : d.Starts (m.take sizeofCommonHead ++ m.drop sizeofCommonHead) := by
    rwa [List.take_append_drop]
  have h := hsplit.right.slice_zero
  have h1 : (m.take sizeofCommonHead).length = sizeofCommonHead := by rw [List.length_take]; omega
  have h2 : (m.drop sizeofCommonHead).length = qLen := by rw [List.length_drop]; omega
  rwa [h1, h2, Mem.slice_shift] at h

theorem timeCalls_eq (h : getCommonHeadType (Mem.ofBytes m) sizeofCommonHead = some (.time, qLen))
    (hd : d.Starts m) (hlen : m.length = qLen + sizeofCommonHead) : timeCalls d = callsOf m := by
  have htype := shows_head h (by omega) (hd.take (visible m)) (Nat.le_refl _)
  unfold timeCalls callsOf
  rw [h, getCommonHeadType_qLen htype (by decide), slice_body hd hlen]

theorem quotaCalls_eq (h : getCommonHeadType (Mem.ofBytes m) sizeofCommonHead = some (.quota, qLen))
    (hd : d.Starts m) (hlen : m.length = qLen + sizeofCommonHead) :
    [Call.quota (d.slice sizeofCommonHead qLen)] = callsOf m := by
  unfold callsOf
  rw [h, slice_body hd hlen]

end Body

/-! ## The main loop on the stream -/

/-- Every index head is followed by a mapping record, or ends the stream. -/
def Paired : List Bytes → Prop
  | [] => True
  | m :: ms => (IsIndex m → ∀ m' ∈ ms.head?, IsMapping m') ∧ Paired ms

/-- The handler holds the first `h` bytes of the stream `ms`. -/
structure Sync (h : Nat) (ms : List Bytes) (g : HalfBuffer) : Prop where
  half : g.used = h
  cut : 0 < h → ∃ m ms', ms = m :: ms' ∧ h < m.length ∧ g.buffer.Starts (m.take h)

theorem Sync.idle {ms : List Bytes} {g : HalfBuffer} (h : g.used = 0) : Sync 0 ms g :=
  ⟨h, fun h0 => absurd h0 (Nat.lt_irrefl 0)⟩

/-- A beginning of a message that is not whole is kept by the main loop. -/
theorem part_of_cut {m : Bytes} (hm : WellFormed sizeofCommonHead m) {d : Mem} {re : Nat} (hlt : re < m.length)
    (hd : d.Starts (m.take re)) : isPart d re (getCommonHeadType d re) := by
  by_cases hshort : re < sizeofCommonHead
  · rw [getCommonHeadType_short hshort]
    exact .inl hshort
  · have hvis : d.Starts (m.take (visible m)) := by
      have := hd.take (visible m)
      rwa [List.take_take, Nat.min_eq_left (Nat.le_trans (visible_le m) (Nat.not_lt.mp hshort))] at this
    cases hm with
    | index qLen type len => omega
    | mapping mark len =>
      have hmark := shows_mapping mark (by rw [len]; decide) hvis
      rw [hmark.not_head]
      exact .inr ⟨hmark, by omega⟩
    | time qLen type len =>
      rw [shows_head type (by omega) hvis (Nat.not_lt.mp hshort)]
      exact .inr (.inr (by omega))
    | quota qLen type len =>
      rw [shows_head type (by omega) hvis (Nat.not_lt.mp hshort)]
      exact .inr (.inr (by omega))

/-- A whole message other than an index head is handled. -/
theorem lv1Loop_whole {m : Bytes} (hm : WellFormed sizeofCommonHead m) (hindex : ¬ IsIndex m) {d : Mem}
    (hd : d.Starts m) {re : Nat} (hle : m.length ≤ re) (g : HalfBuffer) :
    lv1Loop d re g =
      (lv1Loop (d.shift m.length) (re - m.length) g).map fun r => (callsOf m ++ r.1, r.2) := by
  have hvis := hd.take (visible m)
  cases hm with
  | index qLen type len => exact absurd (by rw [IsIndex, type]; rfl) hindex
  | mapping mark len =>
    have hmark := shows_mapping mark (by rw [len]; decide) hvis
    rw [lv1Loop_mapping hmark (by omega), callsOf_mapping mark, ← len, hd.slice_zero]
    rfl
  | time qLen type len =>
    have htype := shows_head type (by omega) hvis (show sizeofCommonHead ≤ re by omega)
    rw [lv1Loop_time htype (by omega), timeCalls_eq type hd len, ← len]
  | quota qLen type len =>
    have htype := shows_head type (by omega) hvis (show sizeofCommonHead ≤ re by omega)
    rw [lv1Loop_quota htype (by omega), ← quotaCalls_eq type hd len, ← len]
    rfl

/-- What the main loop finds behind an index head. -/
theorem next_of_index {ms : List Bytes} (hms : ∀ m ∈ ms, WellFormed sizeofCommonHead m)
    (hmap : ∀ m ∈ ms.head?, IsMapping m) {t r : Bytes} {d : Mem} (hd : d.Starts t)
    (hcut : t ++ r = ms.flatten) :
    t.length = 0 ∨ (HasMark d ∧ sizeofCodeMappingInfo ≤ t.length) ∨
      isPart d t.length (getCommonHeadType d t.length) := by
  cases ms with
  | nil => exact .inl (by rw [(List.append_eq_nil_iff.mp hcut).1, List.length_nil])
  | cons m ms =>
    have hm := hms m List.mem_cons_self
    by_cases hle : m.length ≤ t.length
    · obtain ⟨ht, -⟩ := piece_whole hcut hle
      have hlen := hm.mapping_length (hmap m rfl)
      rw [ht] at hd
      have hmark := shows_mapping (hmap m rfl) (by rw [hlen]; decide) (hd.left.take (visible m))
      exact .inr (.inl ⟨hmark, by omega⟩)
    · have hlt := Nat.not_le.mp hle
      rw [piece_cut hcut hlt] at hd
      exact .inr (.inr (part_of_cut hm hlt hd))

/-- The main loop on a piece of the stream that starts with a message. -/
theorem lv1Loop_stream {ms : List Bytes} (hms : ∀ m ∈ ms, WellFormed sizeofCommonHead m) (hpair : Paired ms)
    {t r : Bytes} {d : Mem} {g : HalfBuffer} (hg : g.used = 0) (hd : d.Starts t) (hcut : t ++ r = ms.flatten) :
    ∃ g', lv1Loop d t.length g = some ((complete t.length ms).flatMap callsOf, g') ∧
      Sync (pending t.length ms) (todo t.length ms) g' := by
  induction ms generalizing t d with
  | nil =>
    obtain ⟨rfl, -⟩ := List.append_eq_nil_iff.mp hcut
    exact ⟨g, lv1Loop_zero, Sync.idle hg⟩
  | cons m ms ih =>
    have hm := hms m List.mem_cons_self
    have hms' := fun x hx => hms x (List.mem_cons_of_mem m hx)
    by_cases hle : m.length ≤ t.length
    · obtain ⟨ht, hcut'⟩ := piece_whole hcut hle
      rw [ht] at hd
      have hdrop : (t.drop m.length).length = t.length - m.length := List.length_drop
      obtain ⟨g', hloop, hsync⟩ := ih hms' hpair.2 hd.right hcut'
      have hnext := fun hi => next_of_index hms' (hpair.1 hi) hd.right hcut'
      rw [hdrop] at hloop hsync hnext
      simp only [complete, pending, todo, if_pos hle, List.flatMap_cons]
      refine ⟨g', ?_, hsync⟩
      by_cases hindex : IsIndex m
      · -- the head is skipped together with what follows it
        obtain ⟨qLen, type, len⟩ := hm.of_index hindex
        have htype := shows_head type (by omega) (hd.left.take (visible m))
          (show sizeofCommonHead ≤ t.length by omega)
        rw [callsOf_index type, List.nil_append, ← hloop, len]
        exact lv1Loop_index htype (by omega) hg (len ▸ hnext hindex)
      · rw [lv1Loop_whole hm hindex hd.left hle, hloop]
        rfl
    · have hlt := Nat.not_le.mp hle
      rcases Nat.eq_zero_or_pos t.length with h0 | hpos
      · obtain ⟨hc, ht, hp⟩ := complete_zero fun x hx => (hms x hx).ne_nil
        rw [h0, hc, ht, hp]
        exact ⟨g, lv1Loop_zero, Sync.idle hg⟩
      · have ht := piece_cut hcut hlt
        have hd' := hd
        rw [ht] at hd'
        simp only [complete, pending, todo, if_neg hle]
        refine ⟨_, lv1Loop_part hpos (part_of_cut hm hlt hd'), rfl, fun _ => ⟨m, ms, rfl, hlt, ?_⟩⟩
        rw [← ht]
        exact (Mem.starts_nil g.buffer).memcpy hd

/-- The first message of the piece can be recognised, if there is any of it. -/
def Seen (n : Nat) (ms : List Bytes) : Prop := n = 0 ∨ ∀ m ∈ ms.head?, visible m ≤ n

instance (n : Nat) (ms : List Bytes) : Decidable (Seen n ms) := by unfold Seen; infer_instance

/-- Then nothing is skipped before the main loop. -/
theorem lv1Scan_stream {ms : List Bytes} (hms : ∀ m ∈ ms, WellFormed sizeofCommonHead m) {t r : Bytes} {d : Mem}
    (hd : d.Starts t) (hcut : t ++ r = ms.flatten) (hseen : Seen t.length ms) :
    lv1Scan d t.length = (d, t.length) := by
  cases hn : t.length with
  | zero => rfl
  | succ n =>
    cases ms with
    | nil => rw [(List.append_eq_nil_iff.mp hcut).1] at hn; cases hn
    | cons m ms =>
      have hm := hms m List.mem_cons_self
      have hvis : visible m ≤ t.length := by
        rcases hseen with h0 | hseen
        · omega
        · exact hseen m rfl
      have hd' := hd.take (visible m)
      rw [piece_take hcut hvis hm.visible_le_length] at hd'
      exact if_pos (hm.recognised hd' (hn ▸ hvis))

theorem lv1Parse_stream {ms : List Bytes} (hms : ∀ m ∈ ms, WellFormed sizeofCommonHead m) (hpair : Paired ms)
    {t r : Bytes} {d : Mem} {g : HalfBuffer} (hg : g.used = 0) (hd : d.Starts t) (hcut : t ++ r = ms.flatten)
    (hseen : Seen t.length ms) :
    ∃ g', lv1Parse d t.length g = some ((complete t.length ms).flatMap callsOf, g') ∧
      Sync (pending t.length ms) (todo t.length ms) g' := by
  obtain ⟨g', hloop, hsync⟩ := lv1Loop_stream hms hpair hg hd hcut
  refine ⟨g', ?_, hsync⟩
  rw [lv1Parse, Int.toNat_natCast, lv1Scan_stream hms hd hcut hseen]
  exact hloop

/-! ## The half message -/

section Half

variable {m b r : Bytes} {ms : List Bytes} {buffer start : Mem} {h : Nat}

/-- How the second stage ends for `h` bytes of the message `m` and `n` bytes of segment. -/
def HalfOk (m : Bytes) (h n : Nat) (res : HalfResult) : Prop :=
  if m.length ≤ h + n then ∃ buffer, res = .done (callsOf m) (m.length - h) buffer
  else ∃ buffer : Mem, res = .more ⟨h + n, buffer⟩ ∧ buffer.Starts (m.take (h + n))

theorem fillHalf_ok (hbuf : buffer.Starts (m.take h)) (hlt : h < m.length) (hstart : start.Starts b)
    (hcut : m.take h ++ b ++ r = (m :: ms).flatten) (hlen : b.length < 2 ^ 31) {calls : Mem → List Call}
    (hcalls : ∀ d : Mem, d.Starts m → calls d = callsOf m) :
    HalfOk m h b.length (fillHalf h buffer start b.length m.length calls) := by
  have hsub : subSize m.length h = m.length - h := if_pos (Nat.le_of_lt hlt)
  have htake : (m.take h).length = h := by rw [List.length_take]; omega
  have hpiece : (m.take h ++ b).length = h + b.length := by rw [List.length_append, htake]
  unfold HalfOk fillHalf
  simp only [hsub, asSize_ofNat hlen]
  by_cases hle : m.length ≤ h + b.length
  · rw [if_pos hle, if_neg (by omega)]
    -- the bytes up to the end of the message
    have hk : (b.take (m.length - h)).length = m.length - h := by rw [List.length_take]; omega
    have hfull : m.take h ++ b.take (m.length - h) = m := by
      have := piece_take (k := m.length) hcut (by omega) (Nat.le_refl _)
      rwa [List.take_length, List.take_append, htake, List.take_of_length_le (by rw [htake]; omega)] at this
    have hwhole := hbuf.memcpy (hstart.take (m.length - h))
    rw [htake, hk, hfull] at hwhole
    rw [hcalls _ hwhole]
    exact ⟨_, rfl⟩
  · rw [if_neg hle, if_pos (by omega)]
    have hmore := hbuf.memcpy hstart
    rw [htake] at hmore
    refine ⟨_, rfl, ?_⟩
    have := piece_take (k := h + b.length) hcut (by omega) (by omega)
    rw [← hpiece, List.take_length, hpiece] at this
    rwa [← this]

/-- The buffer after the first copy shows the message. -/
theorem copyHead_shows {g : HalfBuffer} (hbuf : g.buffer.Starts (m.take g.used))
    (hm : WellFormed sizeofCommonHead m) (hlt : g.used < m.length) (hstart : start.Starts b)
    (hcut : m.take g.used ++ b ++ r = (m :: ms).flatten) (hlen : b.length < 2 ^ 31)
    (hvis : visible m ≤ g.used + b.length) :
    (copyHead g start b.length).Starts (m.take g.used) ∧
      (copyHead g start b.length).Starts (m.take (visible m)) := by
  have hv := visible_le m
  unfold sizeofCommonHead at hv
  unfold copyHead
  by_cases h60 : g.used < 60
  · have hsize : asSize (min 60 (b.length : Int)) = min 60 b.length := by
      rw [show min 60 (b.length : Int) = ((min 60 b.length : Nat) : Int) by omega]
      exact asSize_ofNat (by omega)
    have htake : (m.take g.used).length = g.used := by rw [List.length_take]; omega
    have hk : (b.take (min 60 b.length)).length = min 60 b.length := by rw [List.length_take]; omega
    have hcopy := hbuf.memcpy (hstart.take (min 60 b.length))
    rw [htake, hk] at hcopy
    rw [if_pos h60, hsize]
    refine ⟨hcopy.left, ?_⟩
    have hpiece : (m.take g.used ++ b).take (g.used + min 60 b.length) =
        m.take g.used ++ b.take (min 60 b.length) := by
      rw [List.take_append, htake, List.take_of_length_le (by rw [htake]; omega), Nat.add_sub_cancel_left]
    have hshow := hcopy.take (visible m)
    rw [← hpiece, List.take_take,
      show min (visible m) (g.used + min 60 b.length) = visible m from Nat.min_eq_left (by omega),
      piece_take hcut (by rw [List.length_append, htake]; exact hvis) hm.visible_le_length] at hshow
    exact hshow
  · rw [if_neg h60]
    refine ⟨hbuf, ?_⟩
    have := hbuf.take (visible m)
    rwa [List.take_take, Nat.min_eq_left (by omega)] at this

theorem halfStage_ok {g : HalfBuffer} (hbuf : g.buffer.Starts (m.take g.used))
    (hm : WellFormed sizeofCommonHead m) (hlt : g.used < m.length) (hstart : start.Starts b)
    (hcut : m.take g.used ++ b ++ r = (m :: ms).flatten) (hlen : b.length < 2 ^ 31)
    (hvis : visible m ≤ g.used + b.length) : HalfOk m g.used b.length (halfStage g start b.length) := by
  obtain ⟨hkeep, hshow⟩ := copyHead_shows hbuf hm hlt hstart hcut hlen hvis
  unfold halfStage
  dsimp only
  cases hm with
  | index qLen type len =>
    have hle : m.length ≤ g.used + b.length := by
      rw [visible_of_head type] at hvis
      omega
    rw [shows_head type (by omega) hshow (Nat.le_refl _)]
    unfold HalfOk
    rw [if_pos hle, callsOf_index type, len, subSize, if_pos (by omega)]
    exact ⟨_, rfl⟩
  | mapping mark len =>
    have hmark := shows_mapping mark (by rw [len]; decide) hshow
    rw [hmark.not_head]
    dsimp only
    rw [if_pos hmark, ← len]
    refine fillHalf_ok hkeep hlt hstart hcut hlen fun d hd => ?_
    rw [callsOf_mapping mark, hd.slice_zero]
  | time qLen type len =>
    have htype := shows_head type (by omega) hshow (Nat.le_refl _)
    rw [htype]
    dsimp only
    rw [if_neg (not_hasMark htype), getCommonHeadType_qLen htype (by decide), ← len]
    exact fillHalf_ok hkeep hlt hstart hcut hlen fun d hd => timeCalls_eq type hd len
  | quota qLen type len =>
    have htype := shows_head type (by omega) hshow (Nat.le_refl _)
    rw [htype]
    dsimp only
    rw [if_neg (not_hasMark htype), getCommonHeadType_qLen htype (by decide), ← len]
    refine fillHalf_ok hkeep hlt hstart hcut hlen fun d hd => ?_
    have htype' := shows_head type (by omega) (hd.take (visible m)) (Nat.le_refl _)
    rw [getCommonHeadType_qLen htype' (by decide)]
    exact quotaCalls_eq type hd len

end Half

/-! ## One segment -/

/-- A segment with which a message starts: its first message can be recognised,
and if that is an index head so can the one behind it. -/
structure Opens (n : Nat) (ms : List Bytes) : Prop where
  seen : Seen n ms
  next : ∀ m ∈ ms.head?, IsIndex m → Seen (n - sizeofCommonHead) ms.tail

/-- A segment that continues the first message of `ms`, of which `h` bytes are
held: it does not seem to start with a message of its own, the message can be
recognised after it, and so can the message behind it. -/
structure Continues (h : Nat) (ms : List Bytes) (s : Seg) : Prop where
  noHead : getCommonHeadType s.mem s.bytes.length = none
  noMark : ¬ HasMark s.mem
  seen : ∀ m ∈ ms.head?, visible m ≤ h + s.bytes.length
  next : ∀ m ∈ ms.head?, Seen (h + s.bytes.length - m.length) ms.tail

section Handler

variable {config net : NetConfig} (hnet : config.Accepts net) {ms : List Bytes}
  (hms : ∀ m ∈ ms, WellFormed sizeofCommonHead m) (hpair : Paired ms.tail) {s : Seg} {g : HalfBuffer} {r : Bytes}
  (hlen : s.bytes.length < 2 ^ 31) (hlogin : ¬ isLogin s.mem s.bytes.length)

include hnet hms hpair hlen hlogin

theorem onDataLv1_opens (hg : g.used = 0) (hcut : s.bytes ++ r = ms.flatten) (ho : Opens s.bytes.length ms) :
    ∃ g', onDataLv1 config g s net = some ((complete s.bytes.length ms).flatMap callsOf, g') ∧
      Sync (pending s.bytes.length ms) (todo s.bytes.length ms) g' := by
  rcases Nat.eq_zero_or_pos s.bytes.length with h0 | hpos
  · obtain ⟨hc, ht, hp⟩ := complete_zero fun x hx => (hms x hx).ne_nil
    have hskip : indexLen (getCommonHeadType s.mem s.bytes.length) = 0 := by
      rw [getCommonHeadType_short (by rw [h0]; decide), indexLen_none]
    rw [onDataLv1_idle hnet hlen hlogin hg hskip, h0, hc, ht, hp]
    exact ⟨g, lv1Loop_zero, Sync.idle hg⟩
  cases ms with
  | nil =>
    rw [(List.append_eq_nil_iff.mp hcut).1] at hpos
    exact absurd hpos (Nat.lt_irrefl 0)
  | cons m ms =>
    have hm := hms m List.mem_cons_self
    have hvis : visible m ≤ s.bytes.length := by
      rcases ho.seen with h0 | hseen
      · omega
      · exact hseen m rfl
    have hshow := s.mem_starts.take (visible m)
    rw [piece_take hcut hvis hm.visible_le_length] at hshow
    by_cases hindex : IsIndex m
    · -- the head is skipped at once
      obtain ⟨qLen, type, len⟩ := hm.of_index hindex
      have hle : m.length ≤ s.bytes.length := by rw [len, ← visible_of_head type]; exact hvis
      obtain ⟨ht, hcut'⟩ := piece_whole hcut hle
      have hd := s.mem_starts
      rw [ht] at hd
      have htype := shows_head type (by omega) hshow (show sizeofCommonHead ≤ s.bytes.length by omega)
      have hdrop : (s.bytes.drop m.length).length = s.bytes.length - m.length := List.length_drop
      have hnext := ho.next m rfl hindex
      rw [← len, ← hdrop, List.tail_cons] at hnext
      obtain ⟨g', hparse, hsync⟩ :=
        lv1Parse_stream (fun x hx => hms x (List.mem_cons_of_mem m hx)) hpair hg hd.right hcut' hnext
      rw [hdrop] at hparse hsync
      rw [onDataLv1_idle hnet hlen hlogin hg (k := m.length) (by rw [htype]; exact len.symm),
        ← Int.ofNat_sub hle, hparse]
      simp only [complete, pending, todo, if_pos hle, List.flatMap_cons, callsOf_index type, List.nil_append]
      exact ⟨g', rfl, hsync⟩
    · have hskip : indexLen (getCommonHeadType s.mem s.bytes.length) = 0 := by
        cases hm with
        | index qLen type len => exact absurd (by rw [IsIndex, type]; rfl) hindex
        | mapping mark len =>
          rw [(shows_mapping mark (by rw [len]; decide) hshow).not_head, indexLen_none]
        | time qLen type len | quota qLen type len =>
          rw [visible_of_head type] at hvis
          rw [shows_head type (by omega) hshow hvis]
          rfl
      obtain ⟨g', hparse, hsync⟩ :=
        lv1Parse_stream hms ⟨fun h => absurd h hindex, hpair⟩ hg s.mem_starts hcut ho.seen
      refine ⟨g', ?_, hsync⟩
      rw [onDataLv1_idle hnet hlen hlogin hg hskip, Mem.shift_zero, Int.natCast_zero, Int.sub_zero, hparse]

theorem onDataLv1_continues {h : Nat} (h0 : 0 < h) (hg : Sync h ms g) (hcut : s.bytes ++ r = ms.flatten.drop h)
    (hc : Continues h ms s) :
    ∃ g', onDataLv1 config g s net = some ((complete (h + s.bytes.length) ms).flatMap callsOf, g') ∧
      Sync (pending (h + s.bytes.length) ms) (todo (h + s.bytes.length) ms) g' := by
  obtain ⟨m, ms', rfl, hlt, hbuf⟩ := hg.cut h0
  have hm := hms m List.mem_cons_self
  have hpiece : m.take h ++ s.bytes ++ r = (m :: ms').flatten := by
    rw [List.append_assoc, hcut, List.flatten_cons, List.drop_append_of_le_length (Nat.le_of_lt hlt),
      ← List.append_assoc, List.take_append_drop]
  have hhalf := halfStage_ok (g := g) (hg.half.symm ▸ hbuf) hm (hg.half.symm ▸ hlt) s.mem_starts
    (hg.half.symm ▸ hpiece) hlen (hg.half.symm ▸ hc.seen m rfl)
  rw [hg.half] at hhalf
  rw [onDataLv1_half hnet hlen hlogin (by rw [hg.half]; exact h0) hc.noHead hc.noMark]
  unfold HalfOk at hhalf
  by_cases hle : m.length ≤ h + s.bytes.length
  · rw [if_pos hle] at hhalf
    obtain ⟨buffer, hres⟩ := hhalf
    -- the rest of the segment starts with a message
    have hmlen : (m.drop h).length = m.length - h := List.length_drop
    obtain ⟨ht, hcut'⟩ := piece_close hlt hcut hle
    have hd := s.mem_starts
    rw [ht] at hd
    have hd' := hd.right
    rw [hmlen] at hd'
    have hdrop : (s.bytes.drop (m.length - h)).length = h + s.bytes.length - m.length := by
      rw [List.length_drop]; omega
    have hre : asInt32 (s.bytes.length - (m.length - h : Nat)) = (s.bytes.drop (m.length - h)).length := by
      rw [← Int.ofNat_sub (show m.length - h ≤ s.bytes.length by omega), asInt32_ofNat (by omega),
        List.length_drop]
    have hms' := fun x hx => hms x (List.mem_cons_of_mem m hx)
    obtain ⟨g', hparse, hsync⟩ :=
      lv1Parse_stream (g := ⟨0, buffer⟩) hms' hpair rfl hd' hcut' (hdrop ▸ hc.next m rfl)
    rw [hres]
    dsimp only
    rw [hre, hparse]
    simp only [complete, pending, todo, if_pos hle, List.flatMap_cons]
    rw [hdrop] at hsync ⊢
    exact ⟨g', rfl, hsync⟩
  · rw [if_neg hle] at hhalf
    obtain ⟨buffer, hres, hbuf'⟩ := hhalf
    rw [hres]
    simp only [complete, pending, todo, if_neg hle]
    exact ⟨_, rfl, rfl, fun _ => ⟨m, ms', rfl, by omega, hbuf'⟩⟩

end Handler

/-! ## Every segment -/

/-- The condition on the segments, `h` bytes of the first message being held. -/
def Clean : Nat → List Bytes → List Seg → Prop
  | _, _, [] => True
  | h, ms, s :: ss =>
    ((h = 0 → Opens s.bytes.length ms) ∧ (0 < h → Continues h ms s)) ∧
      Clean (pending (h + s.bytes.length) ms) (todo (h + s.bytes.length) ms) ss

theorem Paired.todo {ms : List Bytes} (h : Paired ms.tail) (n : Nat) : Paired (todo n ms).tail := by
  induction ms generalizing n with
  | nil => exact h
  | cons m ms ih =>
    unfold Framing.todo
    split
    · refine ih ?_ _
      cases ms with
      | nil => exact h
      | cons m' ms => exact h.2
    · exact h

/-- On cuts that are clean the handler is the ideal reassembler. -/
theorem feed_eq_ideal {config net : NetConfig} (hnet : config.Accepts net) {ss : List Seg} {h : Nat}
    {ms : List Bytes} {g : HalfBuffer} (hms : ∀ m ∈ ms, WellFormed sizeofCommonHead m) (hpair : Paired ms.tail)
    (hlen : ∀ s ∈ ss, s.bytes.length < 2 ^ 31) (hlogin : ∀ s ∈ ss, ¬ isLogin s.mem s.bytes.length)
    (hg : Sync h ms g) (hcut : (ss.map Seg.bytes).flatten = ms.flatten.drop h) (hclean : Clean h ms ss) :
    feedLv1 config net g ss = some ((ideal h ms (ss.map Seg.bytes)).flatMap callsOf) := by
  induction ss generalizing h ms g with
  | nil => rfl
  | cons s ss ih =>
    obtain ⟨⟨hopens, hcont⟩, hclean⟩ := hclean
    have hs := hlen s List.mem_cons_self
    have hls := hlogin s List.mem_cons_self
    rw [List.map_cons, List.flatten_cons] at hcut
    have hstep : ∃ g', onDataLv1 config g s net = some ((complete (h + s.bytes.length) ms).flatMap callsOf, g') ∧
        Sync (pending (h + s.bytes.length) ms) (todo (h + s.bytes.length) ms) g' := by
      rcases Nat.eq_zero_or_pos h with rfl | h0
      · rw [Nat.zero_add]
        exact onDataLv1_opens hnet hms hpair hs hls hg.half (by rw [hcut, List.drop_zero]) (hopens rfl)
      · exact onDataLv1_continues hnet hms hpair hs hls h0 hg hcut (hcont h0)
    obtain ⟨g', hcalls, hsync⟩ := hstep
    have hms' : ∀ m ∈ todo (h + s.bytes.length) ms, WellFormed sizeofCommonHead m :=
      fun m hm => hms m (mem_of_mem_todo hm)
    have hrest := ih hms' (hpair.todo _) (fun x hx => hlen x (List.mem_cons_of_mem s hx))
      (fun x hx => hlogin x (List.mem_cons_of_mem s hx)) hsync
      (by rw [← flatten_drop_add, ← hcut, List.drop_left]) hclean
    rw [feedLv1, hcalls, Option.bind_some, hrest, Option.map_some, List.map_cons, ideal, List.flatMap_append]

section Run

variable {config net : NetConfig} (hnet : config.Accepts net) {ms : List Bytes} {ss : List Seg}
  (hms : ∀ m ∈ ms, WellFormed sizeofCommonHead m) (hpair : Paired ms.tail)
  (hcut : (ss.map Seg.bytes).flatten = ms.flatten) (hlen : ms.flatten.length < 2 ^ 31)

include hnet hms hpair hlen

include hcut in
theorem feed_clean (hlogin : ∀ s ∈ ss, ¬ isLogin s.mem s.bytes.length) (hclean : Clean 0 ms ss) :
    feedLv1 config net HalfBuffer.start ss = some (ms.flatMap callsOf) := by
  have hne := fun m hm => (hms m hm).ne_nil
  have hshort : ∀ s ∈ ss, s.bytes.length < 2 ^ 31 := by
    intro s hs
    have := (List.sublist_flatten_of_mem (List.mem_map_of_mem hs : s.bytes ∈ ss.map Seg.bytes)).length_le
    rw [hcut] at this
    omega
  rw [feed_eq_ideal hnet hms hpair hshort hlogin (Sync.idle rfl) (by rw [hcut, List.drop_zero]) hclean,
    ideal_zero hne hcut]

/-- The uncut stream is clean. -/
theorem feed_uncut (beyond : Mem) :
    feedLv1 config net HalfBuffer.start [⟨ms.flatten, beyond⟩] = some (ms.flatMap callsOf) := by
  have hseen : ∀ {l : List Bytes}, (∀ m ∈ l, WellFormed sizeofCommonHead m) → Seen l.flatten.length l := by
    intro l hl
    refine .inr fun m hm => ?_
    obtain ⟨l', rfl⟩ := List.head?_eq_some_iff.mp hm
    rw [List.flatten_cons, List.length_append]
    exact Nat.le_trans (hl m List.mem_cons_self).visible_le_length (Nat.le_add_right _ _)
  refine feed_clean hnet hms hpair (by simp) hlen ?_
    ⟨⟨fun _ => ⟨hseen hms, ?_⟩, fun h => absurd h (Nat.lt_irrefl 0)⟩, trivial⟩
  · intro s hs hl
    rw [List.mem_singleton] at hs
    subst hs
    obtain ⟨hmark, hhead⟩ := hl.not_shown ms.flatten.length
    cases ms with
    | nil =>
      rcases hl with hl | hl
      · exact absurd hl.1 (show ¬ remoteDateNotify.length ≤ 0 by decide)
      · exact absurd hl.1 (show ¬ remoteStr.length ≤ 0 by decide)
    | cons m ms =>
      have hm := hms m List.mem_cons_self
      have hd := Seg.mem_starts ⟨(m :: ms).flatten, beyond⟩
      rw [show Seg.bytes ⟨(m :: ms).flatten, beyond⟩ = m ++ ms.flatten from List.flatten_cons] at hd
      rcases hm.recognised (hd.left.take (visible m)) (Nat.le_refl _) with ⟨-, h⟩ | ⟨hv, h⟩
      · exact hmark h
      · rw [getCommonHeadType_len hv] at h
        rw [getCommonHeadType_len (Nat.le_trans hv (Nat.le_trans hm.visible_le_length
          (by rw [List.flatten_cons, List.length_append]; exact Nat.le_add_right _ _)))] at hhead
        rw [hhead] at h
        cases h
  · intro m hm hindex
    obtain ⟨ms', rfl⟩ := List.head?_eq_some_iff.mp hm
    obtain ⟨-, -, len⟩ := (hms m List.mem_cons_self).of_index hindex
    have hrest : (m :: ms').flatten.length - sizeofCommonHead = ms'.flatten.length := by
      rw [List.flatten_cons, List.length_append, len, Nat.add_sub_cancel_left]
    rw [show (⟨(m :: ms').flatten, beyond⟩ : Seg).bytes = (m :: ms').flatten from rfl, hrest, List.tail_cons]
    exact hseen fun x hx => hms x (List.mem_cons_of_mem m hx)

end Run

/-- **The condition is enough.** On clean cuts the segments cause the same calls as the uncut
stream, those of its messages in order. -/
theorem same_calls {config net : NetConfig} (hnet : config.Accepts net) {ms : List Bytes} {ss : List Seg}
    (hms : ∀ m ∈ ms, WellFormed sizeofCommonHead m) (hpair : Paired ms.tail)
    (hcut : (ss.map Seg.bytes).flatten = ms.flatten) (hlen : ms.flatten.length < 2 ^ 31)
    (hlogin : ∀ s ∈ ss, ¬ isLogin s.mem s.bytes.length) (hclean : Clean 0 ms ss) (beyond : Mem) :
    feedLv1 config net HalfBuffer.start ss = feedLv1 config net HalfBuffer.start [⟨ms.flatten, beyond⟩] ∧
      feedLv1 config net HalfBuffer.start ss = some (ms.flatMap callsOf) := by
  have h := feed_clean hnet hms hpair hcut hlen hlogin hclean
  exact ⟨h.trans (feed_uncut hnet hms hpair hlen beyond).symm, h⟩

/-- An index head. -/
def sampleHead : Bytes :=
  [0x01, 0x00, 0x0f, 0xde, 0x00, 0x00, 0x00, 0x00, 0x01, 0x00, 0x00, 0x08, 0x13, 0x46, 0x00, 0x04,
    0x00, 0x00, 0x00, 0x00, 0x00, 0x2b, 0x0f, 0xca]

/-- A mapping record, with 24 given bytes at its end. -/
def sampleMapping (last : Bytes) : Bytes := [0x00, 0x00, 0x00, 0x79, 0x00, 0x58] ++ List.replicate 64 0 ++ last

theorem sampleHead_wellFormed : WellFormed sizeofCommonHead sampleHead :=
  .index 0xca (by decide) rfl

/-- A mapping record that comes in three segments, the first with its index head. -/
def sampleCut : List Seg :=
  [⟨sampleHead ++ (sampleMapping (List.replicate 24 0)).take 10, fun _ => 0⟩, 
    ⟨List.replicate 30 0, fun _ => 0⟩, ⟨List.replicate 54 0, fun _ => 0⟩]

theorem same_calls_threeSegments :
    feedLv1 ⟨0, 0, 0⟩ ⟨1, 2, 3⟩ HalfBuffer.start sampleCut =
      feedLv1 ⟨0, 0, 0⟩ ⟨1, 2, 3⟩ HalfBuffer.start
        [⟨[sampleHead, sampleMapping (List.replicate 24 0)].flatten, fun _ => 0⟩] ∧
    feedLv1 ⟨0, 0, 0⟩ ⟨1, 2, 3⟩ HalfBuffer.start sampleCut =
      some ([sampleHead, sampleMapping (List.replicate 24 0)].flatMap callsOf) := by
  have hms : ∀ m ∈ [sampleHead, sampleMapping (List.replicate 24 0)], WellFormed sizeofCommonHead m := by
    intro m hm
    rcases List.mem_cons.mp hm with rfl | hm
    · exact sampleHead_wellFormed
    · rw [List.mem_singleton] at hm
      subst hm
      exact .mapping (by decide) rfl
  refine same_calls (by decide) hms ⟨fun h => absurd h (by decide), trivial⟩ rfl (by decide) (by decide) ?_ _
  refine ⟨⟨fun _ => ⟨by decide, by decide⟩, fun h => absurd h (by decide)⟩, ?_, ?_, trivial⟩
  · exact ⟨fun h => absurd h (by decide), fun _ => ⟨by decide, by decide, by decide, by decide⟩⟩
  · exact ⟨fun h => absurd h (by decide), fun _ => ⟨by decide, by decide, by decide, by decide⟩⟩

/-- Reassembly that does not depend on the cuts, for heads of `head` bytes. -/
def CutIndependent (head : Nat) : Prop :=
  ∀ config net : NetConfig, config.Accepts net → ∀ (ms : List Bytes) (ss : List Seg),
    (∀ m ∈ ms, WellFormed head m) → (ss.map Seg.bytes).flatten = ms.flatten → (∀ s ∈ ss, s.bytes ≠ []) →
    (∀ s ∈ ss, ¬ isLogin s.mem s.bytes.length) → ∀ beyond,
    feedLv1 config net HalfBuffer.start ss = feedLv1 config net HalfBuffer.start [⟨ms.flatten, beyond⟩]

/-! ## Cuts that are not clean -/

/-- Fewer bytes than a mapping record has are not handed on as one. -/
theorem lv1Loop_short {start : Mem} {re : Nat} {g g' : HalfBuffer} {calls : List Call}
    (hre : re < sizeofCodeMappingInfo) (h : lv1Loop start re g = some (calls, g')) (data : Bytes) :
    .code2Index data ∉ calls := by
  fun_induction lv1Loop start re g generalizing calls g' with
  | case1 | case2 | case7 =>
    cases h
    exact List.not_mem_nil
  | case3 =>
    rename_i hmark ih
    omega
  | case4 start =>
    rename_i htype ih
    obtain ⟨⟨calls', g''⟩, hrest, hr⟩ := Option.map_eq_some_iff.mp h
    cases hr
    have hhead : .code2Index data ∉ timeCalls start := by
      unfold timeCalls
      split <;> simp
    simpa [hhead] using ih (by omega) hrest
  | case5 => cases h
  | case6 =>
    rename_i htype ih
    obtain ⟨⟨calls', g''⟩, hrest, hr⟩ := Option.map_eq_some_iff.mp h
    cases hr
    simpa using ih (by omega) hrest

theorem lv1Scan_le (start : Mem) (re : Nat) : (lv1Scan start re).2 ≤ re := by
  induction re generalizing start with
  | zero => exact Nat.le_refl 0
  | succ re ih =>
    rw [lv1Scan]
    split
    · exact Nat.le_refl _
    · exact Nat.le_succ_of_le (ih _)

/-- Too few bytes to recognise anything are all skipped. -/
theorem lv1Scan_short (start : Mem) {re : Nat} (hre : re < sizeofStaticInfoMark) : (lv1Scan start re).2 = 0 := by
  induction re generalizing start with
  | zero => rfl
  | succ re ih =>
    have hsize : sizeofStaticInfoMark ≤ sizeofCommonHead := by decide
    rw [lv1Scan, if_neg (by omega)]
    exact ih _ (by omega)

theorem lv1Parse_tiny (start : Mem) {re : Nat} (hre : re < sizeofStaticInfoMark) (g : HalfBuffer) :
    lv1Parse start re g = some ([], g) := by
  rw [lv1Parse, Int.toNat_natCast]
  show lv1Loop _ (lv1Scan start re).2 g = _
  rw [lv1Scan_short start hre]
  exact lv1Loop_zero

section TwoSegments

variable {config net : NetConfig} (hnet : config.Accepts net) {s : Seg} {g : HalfBuffer}
  (hlogin : ¬ isLogin s.mem s.bytes.length)

include hnet hlogin

/-- Nor are they without a half message. -/
theorem onDataLv1_short (hg : g.used = 0) (hlen : s.bytes.length < sizeofCodeMappingInfo) {calls : List Call}
    {g' : HalfBuffer} (h : onDataLv1 config g s net = some (calls, g')) (data : Bytes) : .code2Index data ∉ calls := by
  have hfits : s.bytes.length < 2 ^ 31 := Nat.lt_trans hlen (by decide)
  rw [onDataLv1_idle hnet hfits hlogin hg rfl] at h
  refine lv1Loop_short ?_ h data
  refine Nat.lt_of_le_of_lt (lv1Scan_le _ _) ?_
  omega

/-- Of fewer bytes than the mark has nothing is kept. -/
theorem onDataLv1_tiny (hg : g.used = 0) (hlen : s.bytes.length < sizeofStaticInfoMark) :
    onDataLv1 config g s net = some ([], g) := by
  have hfits : s.bytes.length < 2 ^ 31 := Nat.lt_trans hlen (by decide)
  have hsize : sizeofStaticInfoMark ≤ sizeofCommonHead := by decide
  have hskip : indexLen (getCommonHeadType s.mem s.bytes.length) = 0 := by
    rw [getCommonHeadType_short (Nat.lt_of_lt_of_le hlen hsize), indexLen_none]
  rw [onDataLv1_idle hnet hfits hlogin hg hskip, Int.natCast_zero, Int.sub_zero, lv1Parse_tiny _ hlen]

end TwoSegments

theorem feed_one {config net : NetConfig} {g : HalfBuffer} {s : Seg} {calls : List Call}
    (h : feedLv1 config net g [s] = some calls) : ∃ g', onDataLv1 config g s net = some (calls, g') := by
  obtain ⟨⟨calls', g'⟩, hs, hr⟩ := Option.bind_eq_some_iff.mp h
  obtain ⟨rest, hrest, rfl⟩ := Option.map_eq_some_iff.mp hr
  cases hrest
  exact ⟨g', by rw [List.append_nil]; exact hs⟩

/-- **Exact condition**, for a mapping record in two segments: the first one has its mark, and the
second does not begin as a message of its own would. -/
theorem mapping_two_segments_iff {config net : NetConfig} (hnet : config.Accepts net) {s1 s2 : Seg}
    (hm : IsMapping (s1.bytes ++ s2.bytes)) (hlen : (s1.bytes ++ s2.bytes).length = sizeofCodeMappingInfo)
    (h1 : s1.bytes ≠ []) (h2 : s2.bytes ≠ []) (hlogin : ∀ s ∈ [s1, s2], ¬ isLogin s.mem s.bytes.length) :
    feedLv1 config net HalfBuffer.start [s1, s2] = some [.code2Index (s1.bytes ++ s2.bytes)] ↔
      sizeofStaticInfoMark ≤ s1.bytes.length ∧ getCommonHeadType s2.mem s2.bytes.length = none ∧ ¬ HasMark s2.mem := by
  have hms : ∀ m ∈ [s1.bytes ++ s2.bytes], WellFormed sizeofCommonHead m := fun m h =>
    List.mem_singleton.mp h ▸ .mapping hm hlen
  have hsum := hlen
  rw [List.length_append] at hsum
  have hpos1 := List.length_pos_of_ne_nil h1
  have hpos2 := List.length_pos_of_ne_nil h2
  have hlogin1 := hlogin s1 (by simp)
  have hlogin2 := hlogin s2 (by simp)
  have hvis : visible (s1.bytes ++ s2.bytes) = sizeofStaticInfoMark := if_pos hm
  have hindex : ¬ IsIndex (s1.bytes ++ s2.bytes) := by
    rw [IsIndex, HasMark.not_head hm]
    simp
  constructor
  · intro h
    obtain ⟨⟨calls1, g1⟩, hfirst, hr⟩ := Option.bind_eq_some_iff.mp h
    obtain ⟨calls2, hsecond, hcalls⟩ := Option.map_eq_some_iff.mp hr
    obtain ⟨g2, hsecond⟩ := feed_one hsecond
    -- The second segment is too short for the record.
    have hlost : ∀ g : HalfBuffer, g.used = 0 → onDataLv1 config g s2 net = some (calls2, g2) → calls1 = [] → False := by
      intro g hg hs hnil
      rw [hnil, List.nil_append] at hcalls
      refine onDataLv1_short hnet hlogin2 hg (by omega) hs (s1.bytes ++ s2.bytes) ?_
      rw [hcalls]
      exact List.mem_singleton_self _
    have hmark : sizeofStaticInfoMark ≤ s1.bytes.length := by
      by_contra hshort
      rw [onDataLv1_tiny hnet hlogin1 rfl (Nat.not_le.mp hshort), Option.some.injEq, Prod.mk.injEq] at hfirst
      exact hlost g1 (hfirst.2 ▸ rfl) hsecond hfirst.1.symm
    obtain ⟨g, hopens, -⟩ := onDataLv1_opens hnet hms trivial (g := HalfBuffer.start) (r := s2.bytes)
      (by rw [sizeofCodeMappingInfo] at hsum; omega) hlogin1 rfl (by simp)
      ⟨.inr fun m h => by cases h; rw [hvis]; exact hmark, fun m h hi => by cases h; exact absurd hi hindex⟩
    have hnil : calls1 = [] := by
      rw [hfirst] at hopens
      cases hopens
      rw [complete, if_neg (by omega)]
      rfl
    refine ⟨hmark, ?_⟩
    by_contra hnot
    have hdrop : (getCommonHeadType s2.mem s2.bytes.length).isSome ∨ HasMark s2.mem := by
      by_cases hm2 : HasMark s2.mem
      · exact .inr hm2
      · exact .inl (Option.isSome_iff_ne_none.mpr fun hn => hnot ⟨hn, hm2⟩)
    rw [onDataLv1_drop hnet (by rw [sizeofCodeMappingInfo] at hsum; omega) hdrop] at hsecond
    exact hlost _ rfl hsecond hnil
  · rintro ⟨hmark, hhead, hnomark⟩
    have hpend : pending (0 + s1.bytes.length) [s1.bytes ++ s2.bytes] = s1.bytes.length := by
      rw [Nat.zero_add, pending, if_neg (by omega)]
    have htodo : todo (0 + s1.bytes.length) [s1.bytes ++ s2.bytes] = [s1.bytes ++ s2.bytes] := by
      rw [Nat.zero_add, todo, if_neg (by omega)]
    have hsize : [s1.bytes ++ s2.bytes].flatten.length < 2 ^ 31 := by
      rw [List.flatten_singleton, hlen]
      decide
    have hfeed := @feed_clean config net hnet _ [s1, s2] hms trivial (by simp) hsize hlogin
      ⟨⟨fun _ => ?_, fun h => absurd h (Nat.lt_irrefl 0)⟩, ?_⟩
    · rw [hfeed, List.flatMap_singleton, callsOf_mapping hm]
    · exact ⟨.inr fun m h => by cases h; rw [hvis]; exact hmark, fun m h hi => by cases h; exact absurd hi hindex⟩
    · rw [hpend, htodo]
      refine ⟨⟨fun h0 => by omega, fun _ => ⟨hhead, hnomark, fun m h => ?_, fun m h => ?_⟩⟩, trivial⟩
      · cases h
        rw [hvis]
        omega
      · cases h
        exact .inl (by omega)

/-- A half message that is not recognised is given up. -/
theorem halfStage_lost {g : HalfBuffer} {start : Mem} {re : Int}
    (hhead : getCommonHeadType (copyHead g start re) sizeofCommonHead = none) (hmark : ¬ HasMark (copyHead g start re)) :
    halfStage g start re = .done [] 0 (copyHead g start re) := by
  unfold halfStage
  dsimp only
  rw [hhead]
  exact if_neg hmark

/-- Two mapping records, of which the second comes in segments of 2, 2 and 90 bytes. -/
def headHeld : Seg × Seg × Seg :=
  (⟨sampleMapping (List.replicate 24 1) ++ [0x00, 0x00], fun _ => 0⟩, ⟨[0x00, 0x79], fun _ => 0⟩,
    ⟨(sampleMapping (List.replicate 24 0)).drop 4, fun _ => 0⟩)

/-- What is held after the first of them. -/
def held : HalfBuffer := ⟨2, HalfBuffer.start.buffer.memcpy 0 (headHeld.1.mem.shift sizeofCodeMappingInfo) 2⟩

theorem headHeld_first : onDataLv1 ⟨0, 0, 0⟩ HalfBuffer.start headHeld.1 ⟨1, 2, 3⟩ =
    some ([.code2Index (sampleMapping (List.replicate 24 1))], held) := by
  have hrecord : headHeld.1.mem.slice 0 sizeofCodeMappingInfo = sampleMapping (List.replicate 24 1) := by decide
  have hscan : lv1Scan headHeld.1.mem 96 = (headHeld.1.mem, 96) := if_pos (.inl (by decide))
  have hpart := @lv1Loop_part (headHeld.1.mem.shift sizeofCodeMappingInfo) 2 HalfBuffer.start (by decide)
    (.inl (by decide))
  rw [onDataLv1_idle (by decide) (by decide) (by decide) rfl (k := 0) (by decide), Mem.shift_zero, lv1Parse]
  show lv1Loop (lv1Scan headHeld.1.mem 96).1 (lv1Scan headHeld.1.mem 96).2 _ = _
  rw [hscan, lv1Loop_mapping (by decide) (by decide), hrecord]
  exact congrArg (Option.map _) hpart

/-- The two bytes that are held and the next two do not make a mark, and are forgotten. -/
theorem headHeld_second :
    ∃ g, onDataLv1 ⟨0, 0, 0⟩ held headHeld.2.1 ⟨1, 2, 3⟩ = some ([], g) ∧ g.used = 0 := by
  have hhead : getCommonHeadType (copyHead held headHeld.2.1.mem headHeld.2.1.bytes.length) sizeofCommonHead = none := by
    decide
  have hmark : ¬ HasMark (copyHead held headHeld.2.1.mem headHeld.2.1.bytes.length) := by decide
  refine ⟨⟨0, copyHead held headHeld.2.1.mem headHeld.2.1.bytes.length⟩, ?_, rfl⟩
  rw [onDataLv1_half (by decide) (by decide) (by decide) (by decide) (by decide) (by decide), halfStage_lost hhead hmark]
  have hre : asInt32 (headHeld.2.1.bytes.length - (0 : Nat)) = (2 : Nat) := by decide
  dsimp only
  rw [hre, lv1Parse_tiny _ (by decide)]
  rfl

/-- **Counterexample.** The half message is recognised from what is in the buffer, whether the
segment filled it or not, and what is not recognised is thrown away. -/
theorem held_bytes_thrown_away : ¬ CutIndependent 20 ∧ ¬ CutIndependent sizeofCommonHead := by
  have hmap1 : IsMapping (sampleMapping (List.replicate 24 1)) := by decide
  have hmap0 : IsMapping (sampleMapping (List.replicate 24 0)) := by decide
  have hall : ∀ head, ¬ CutIndependent head := by
    intro head h
    have hms : ∀ head, ∀ m ∈ [sampleMapping (List.replicate 24 1), sampleMapping (List.replicate 24 0)],
        WellFormed head m := by
      intro head m hm
      simp only [List.mem_cons, List.not_mem_nil, or_false] at hm
      rcases hm with rfl | rfl
      · exact .mapping hmap1 rfl
      · exact .mapping hmap0 rfl
    have hlen : [sampleMapping (List.replicate 24 1), sampleMapping (List.replicate 24 0)].flatten.length = 188 := rfl
    have hcalls := h ⟨0, 0, 0⟩ ⟨1, 2, 3⟩ (by decide)
      [sampleMapping (List.replicate 24 1), sampleMapping (List.replicate 24 0)] [headHeld.1, headHeld.2.1, headHeld.2.2]
      (hms head) rfl (by decide) (by decide) (fun _ => 0)
    rw [feed_uncut (by decide) (hms sizeofCommonHead) ⟨fun hi => absurd hi (by decide), trivial⟩
      (by rw [hlen]; decide)] at hcalls
    obtain ⟨g, hsecond, hg⟩ := headHeld_second
    rw [feedLv1, headHeld_first, Option.bind_some, feedLv1, hsecond, Option.bind_some] at hcalls
    obtain ⟨calls, hcalls, hr⟩ := Option.map_eq_some_iff.mp hcalls
    obtain ⟨calls', hlast, rfl⟩ := Option.map_eq_some_iff.mp hcalls
    obtain ⟨g', hlast⟩ := feed_one hlast
    refine onDataLv1_short (by decide) (by decide) hg (by decide) hlast (sampleMapping (List.replicate 24 0)) ?_
    simp only [List.flatMap_cons, callsOf_mapping hmap1, callsOf_mapping hmap0, List.flatMap_nil, List.nil_append,
      List.append_nil, List.cons_append, List.cons.injEq, true_and] at hr
    rw [hr]
    exact List.mem_singleton_self _
  exact ⟨hall 20, hall sizeofCommonHead⟩

end MdInfoSet.L3.Lv1Reassembly
