import MdInfoSet.Core.Framing
import MdInfoSet.L2Machine.Lv2Handler

/-!
# Level-2 reassembly

Which cuts of the Level-2 stream `Lv2Handler` puts together again. The handler
is compared with the ideal reassembler of `Framing`: before each segment it
holds the first `h` bytes of the next message (`Sync`).

**Exact condition.** Whatever the receive buffer holds behind the segments, the
handler hands on exactly the messages of the stream if and only if the cuts
satisfy `Fits`: a segment that continues a message has more than 6 bytes, does
not look like a message head and completes the message, and every message that
starts in a segment has more than 6 bytes of the segment from its start on,
which tell its length (`delivers_iff_fits`).

* `fits_delivers`: the condition is enough, by `Framing.ideal_eq`.
* `fits_of_delivers`: it is necessary. Each byte the handler skips is missing in
  what it hands on, and a byte it copies from behind a segment is arbitrary.
-/
namespace MdInfoSet.L3.Lv2Reassembly

open MdInfoSet.Framing MdInfoSet.L1.Lv2Frame MdInfoSet.L2.Lv2Handler

/-! ## The condition on the cuts -/

/-- Each message that starts within the `n` bytes is recognised: more than 6
bytes of it and its successors are there, and they tell its length. -/
def Readable : Nat → List Bytes → Prop
  | n, [] => n = 0
  | n, m :: ms =>
    n = 0 ∨ 6 < n ∧ if m.length ≤ n then Readable (n - m.length) ms else Shows (m.take n) m.length

/-- The segment `s` can complete the first message of `ms`, of which `h` bytes
are held. -/
structure Continues (h : Nat) (ms : List Bytes) (s : Bytes) : Prop where
  long : 6 < s.length
  unlikeHead : Shows s 0
  closes : ∀ m ∈ ms.head?, m.length ≤ h + s.length

/-- The condition on the segments, `h` bytes of the first message being held. -/
def Fits : Nat → List Bytes → List Bytes → Prop
  | _, _, [] => True
  | h, ms, s :: ss =>
    ((0 < h → Continues h ms s) ∧ Readable (h + s.length) ms) ∧
      Fits (pending (h + s.length) ms) (todo (h + s.length) ms) ss

/-- The handler holds the first `h` bytes of the stream `ms`. -/
structure Sync (h : Nat) (ms : List Bytes) (g : HalfPacket) : Prop where
  half : g.halfSize = h
  cut : 0 < h → ∃ m ms', ms = m :: ms' ∧ h < m.length ∧ g.missSize = m.length - h ∧
    g.buffer.Starts (m.take h)

theorem Sync.idle {ms : List Bytes} {g : HalfPacket} (h : g.halfSize = 0) : Sync 0 ms g :=
  ⟨h, fun h0 => absurd h0 (Nat.lt_irrefl 0)⟩

/-! ## The condition is enough -/

/-- The loop on a piece of the stream that starts with a message. -/
theorem lv2Loop_readable {ms : List Bytes} (hms : ∀ m ∈ ms, Complete m) {t r : Bytes} {d : Mem}
    {k : Nat} {g : HalfPacket} (hg : g.halfSize = 0) (hd : d.Starts t) (hcut : t ++ r = ms.flatten)
    (hr : Readable t.length ms) :
    (lv2Loop d k g t.length).1 = complete t.length ms ∧
      Sync (pending t.length ms) (todo t.length ms) (lv2Loop d k g t.length).2 := by
  induction ms generalizing t d k with
  | nil =>
    rw [lv2Loop_stop (by rw [show t.length = 0 from hr]; decide)]
    refine ⟨rfl, ?_⟩
    rw [show t.length = 0 from hr]
    exact Sync.idle hg
  | cons m ms ih =>
    have hm := hms m List.mem_cons_self
    have hms' := fun x hx => hms x (List.mem_cons_of_mem m hx)
    rcases hr with h0 | ⟨h6, hr⟩
    · obtain ⟨hc, ht, hp⟩ := complete_zero fun x hx => (hms x hx).1
      rw [h0, lv2Loop_stop (by decide), hc, ht, hp]
      exact ⟨rfl, Sync.idle hg⟩
    · by_cases hle : m.length ≤ t.length
      · obtain ⟨ht, hcut'⟩ := piece_whole hcut hle
        rw [if_pos hle] at hr
        rw [ht] at hd
        have hlen : getCurReadMsgLength d = m.length := hm.2 d hd.left
        have hpos : 0 < m.length := List.length_pos_of_ne_nil hm.1
        have hrest := ih hms' (k := m.length) hd.right hcut' (by rw [List.length_drop]; exact hr)
        rw [lv2Loop_whole h6 hg (by rw [hlen]; exact hpos) (by rw [hlen]; exact hle), hlen,
          hd.left.slice_zero]
        simp only [complete, pending, todo, if_pos hle]
        rw [List.length_drop] at hrest
        exact ⟨congrArg (m :: ·) hrest.1, hrest.2⟩
      · have ht := piece_cut hcut (Nat.not_le.mp hle)
        rw [if_neg hle, ← ht] at hr
        have hlen : getCurReadMsgLength d = m.length := hr d hd
        rw [lv2Loop_half h6 hg (by omega), hlen]
        simp only [complete, pending, todo, if_neg hle]
        refine ⟨trivial, rfl, fun _ => ⟨m, ms, rfl, by omega, rfl, ?_⟩⟩
        rw [← ht]
        exact (Mem.starts_nil g.buffer).memcpy hd

section Handler

variable {config net : NetConfig} (hnet : config.Accepts net)

include hnet

theorem lv2Handler_eq (g : HalfPacket) (s : Seg) : lv2Handler config g s net =
    lv2Loop s.mem (getCurReadMsgLength s.mem) g s.bytes.length := if_pos hnet

/-- One segment that fits: the handler does what the ideal reassembler does. -/
theorem lv2Handler_fits {h : Nat} {ms : List Bytes} {g : HalfPacket} {s : Seg} {r : Bytes}
    (hms : ∀ m ∈ ms, Complete m) (hg : Sync h ms g) (hcut : s.bytes ++ r = ms.flatten.drop h)
    (hc : 0 < h → Continues h ms s.bytes) (hr : Readable (h + s.bytes.length) ms) :
    (lv2Handler config g s net).1 = complete (h + s.bytes.length) ms ∧
      Sync (pending (h + s.bytes.length) ms) (todo (h + s.bytes.length) ms)
        (lv2Handler config g s net).2 := by
  rw [lv2Handler_eq hnet]
  rcases Nat.eq_zero_or_pos h with rfl | h0
  · rw [Nat.zero_add] at hr ⊢
    exact lv2Loop_readable hms hg.half s.mem_starts (by rw [hcut, List.drop_zero]) hr
  · obtain ⟨m, ms', rfl, hlt, hmiss, hbuf⟩ := hg.cut h0
    obtain ⟨h6, hunlike, hcl⟩ := hc h0
    have hclose : m.length ≤ h + s.bytes.length := hcl m rfl
    have hmlen : (m.drop h).length = g.missSize := by rw [List.length_drop, hmiss]
    obtain ⟨hs, hcut'⟩ := piece_close hlt hcut hclose
    rw [← hmiss] at hs hcut'
    have hd := s.mem_starts
    rw [hs] at hd
    -- the buffer now holds the whole message
    have hmsg : (g.buffer.memcpy g.halfSize s.mem g.missSize).slice 0 (g.halfSize + g.missSize) = m := by
      have htake : (m.take h).length = g.halfSize := by rw [List.length_take, hg.half]; omega
      have := (hbuf.memcpy hd.left).slice_zero
      rwa [List.take_append_drop, htake, hmlen,
        show m.length = g.halfSize + g.missSize by rw [hg.half]; omega] at this
    have hsub : subSize s.bytes.length g.missSize = (s.bytes.drop g.missSize).length := by
      rw [subSize, if_pos (by omega), List.length_drop]
    have hlen : (s.bytes.drop g.missSize).length = h + s.bytes.length - m.length := by
      rw [List.length_drop]; omega
    have hr' : Readable (h + s.bytes.length - m.length) ms' := by
      rcases hr with hr | ⟨-, hr⟩
      · omega
      · rwa [if_pos hclose] at hr
    rw [hunlike s.mem s.mem_starts, lv2Loop_fill h6 (by rw [hg.half]; exact h0), hmsg, hsub]
    have hd' := hd.right
    rw [hmlen] at hd'
    have hrest := lv2Loop_readable (fun x hx => hms x (List.mem_cons_of_mem m hx)) (k := 0)
      (g := ⟨0, 0, g.buffer.memcpy g.halfSize s.mem g.missSize⟩) rfl hd' hcut' (by rw [hlen]; exact hr')
    simp only [complete, pending, todo, if_pos hclose]
    rw [hlen] at hrest ⊢
    exact ⟨congrArg (m :: ·) hrest.1, hrest.2⟩

/-- The handler is the ideal reassembler on cuts that fit. -/
theorem feed_eq_ideal {ss : List Seg} {h : Nat} {ms : List Bytes} {g : HalfPacket}
    (hms : ∀ m ∈ ms, Complete m) (hg : Sync h ms g)
    (hcut : (ss.map Seg.bytes).flatten = ms.flatten.drop h) (hf : Fits h ms (ss.map Seg.bytes)) :
    feedLv2 config net g ss = ideal h ms (ss.map Seg.bytes) := by
  induction ss generalizing h ms g with
  | nil => rfl
  | cons s ss ih =>
    obtain ⟨⟨hc, hr⟩, hf⟩ := hf
    obtain ⟨h1, h2⟩ := lv2Handler_fits hnet hms hg hcut hc hr
    have hms' : ∀ m ∈ todo (h + s.bytes.length) ms, Complete m := fun m hm => hms m (mem_of_mem_todo hm)
    rw [feedLv2, List.map_cons, ideal, h1, ih hms' h2 ?_ hf]
    rw [← flatten_drop_add, ← hcut, List.map_cons, List.flatten_cons, List.drop_left]

theorem fits_delivers {ms : List Bytes} {ss : List Seg} (hms : ∀ m ∈ ms, Complete m)
    (hcut : (ss.map Seg.bytes).flatten = ms.flatten) (hf : Fits 0 ms (ss.map Seg.bytes)) :
    feedLv2 config net HalfPacket.start ss = ms := by
  rw [feed_eq_ideal hnet hms (Sync.idle rfl) (by rw [hcut, List.drop_zero]) hf]
  exact ideal_zero (fun m hm => (hms m hm).1) hcut

/-! ## Bytes that are skipped are missing -/

omit hnet in
/-- From an empty half packet on, what is handed on and what is held together are
no more than the bytes read. -/
theorem lv2Loop_length_le {d : Mem} {k n : Nat} {g : HalfPacket} (hg : g.halfSize = 0) :
    (lv2Loop d k g n).1.flatten.length + (lv2Loop d k g n).2.halfSize ≤ n := by
  induction n using Nat.strongRecOn generalizing d k with
  | ind n ih =>
    by_cases h6 : n ≤ 6
    · rw [lv2Loop_stop h6]; simp [hg]
    · rcases Nat.eq_zero_or_pos (getCurReadMsgLength d) with hl | hl
      · rw [lv2Loop_unknown hg hl]; simp [hg]
      · by_cases hle : getCurReadMsgLength d ≤ n
        · have := ih (n - getCurReadMsgLength d) (by omega) (d := d.shift (getCurReadMsgLength d))
            (k := getCurReadMsgLength d)
          rw [lv2Loop_whole (by omega) hg hl hle]
          simp only [List.flatten_cons, List.length_append, Mem.slice_length]
          omega
        · rw [lv2Loop_half (by omega) hg (by omega)]; simp

/-- The handler too, as long as the missing bytes are within the segment. -/
theorem lv2Handler_length_le {g : HalfPacket} {s : Seg} (h : 0 < g.halfSize → g.missSize ≤ s.bytes.length) :
    (lv2Handler config g s net).1.flatten.length + (lv2Handler config g s net).2.halfSize ≤
      g.halfSize + s.bytes.length := by
  rw [lv2Handler_eq hnet]
  by_cases h6 : s.bytes.length ≤ 6
  · rw [lv2Loop_stop h6]; simp
  · rcases Nat.eq_zero_or_pos g.halfSize with hg | hg
    · have := lv2Loop_length_le (d := s.mem) (k := getCurReadMsgLength s.mem) (n := s.bytes.length) hg
      omega
    · rcases Nat.eq_zero_or_pos (getCurReadMsgLength s.mem) with hl | hl
      · have hsub : subSize s.bytes.length g.missSize = s.bytes.length - g.missSize := if_pos (h hg)
        have := lv2Loop_length_le (d := s.mem.shift g.missSize) (k := 0)
          (g := ⟨0, 0, g.buffer.memcpy g.halfSize s.mem g.missSize⟩) (n := s.bytes.length - g.missSize) rfl
        have := h hg
        rw [hl, lv2Loop_fill (by omega) hg, hsub]
        simp only [List.flatten_cons, List.length_append, Mem.slice_length]
        omega
      · have := lv2Loop_length_le (d := s.mem) (k := getCurReadMsgLength s.mem) (n := s.bytes.length)
          (g := HalfPacket.start) rfl
        rw [lv2Loop_discard (by omega) hg hl]
        omega

/-! ## The condition is necessary -/

/-- Whatever stands behind the segments, the handler hands on exactly `ms`. -/
def Delivers (config net : NetConfig) (g : HalfPacket) (ms segs : List Bytes) : Prop :=
  ∀ ss : List Seg, ss.map Seg.bytes = segs → feedLv2 config net g ss = ms

/-- Over any bytes and any half packet there is something behind the segment with
which it hands on a wrong message, or no more bytes than it reads. -/
theorem lv2Handler_probe (g : HalfPacket) (s : Bytes) (ms : List Bytes) : ∃ b : Mem,
    ¬ (lv2Handler config g ⟨s, b⟩ net).1 <+: ms ∨
      (lv2Handler config g ⟨s, b⟩ net).1.flatten.length + (lv2Handler config g ⟨s, b⟩ net).2.halfSize ≤
        g.halfSize + s.length := by
  by_cases hover : 6 < s.length ∧ 0 < g.halfSize ∧ s.length < g.missSize
  · obtain ⟨h6, hg, hmiss⟩ := hover
    -- two memories the framer cannot tell apart
    let d : UInt8 → Mem := fun x => Seg.mem ⟨s, fun _ => x⟩
    have hd : ∀ x, (d x).Starts s := fun x => Seg.mem_starts ⟨s, fun _ => x⟩
    have hbeyond : ∀ x, d x s.length = x := fun x => Seg.mem_beyond ⟨s, fun _ => x⟩ 0
    have hsame : getCurReadMsgLength (d 1) = getCurReadMsgLength (d 2) := by
      by_cases h8 : 8 ≤ s.length
      · apply getCurReadMsgLength_congr
        intro i hi
        rw [hd 1 i (by omega), hd 2 i (by omega)]
      · have h7 : s.length = 7 := by omega
        rw [h7] at hbeyond
        apply getCurReadMsgLength_congr_top
        · intro i hi
          rw [hd 1 i (by omega), hd 2 i (by omega)]
        · rw [hbeyond]; decide
        · rw [hbeyond]; decide
    rcases Nat.eq_zero_or_pos (getCurReadMsgLength (d 1)) with hl | hl
    · -- the byte behind the segment ends up in the message
      have hfirst : ∀ x, getCurReadMsgLength (d x) = 0 → (lv2Handler config g ⟨s, fun _ => x⟩ net).1 <+: ms →
          ∃ m ∈ ms.head?, m[g.halfSize + s.length]? = some x := by
        intro x hx hpre
        rw [lv2Handler_eq hnet, show getCurReadMsgLength (Seg.mem ⟨s, fun _ => x⟩) = 0 from hx,
          lv2Loop_fill h6 hg] at hpre
        obtain ⟨rest, rfl⟩ := hpre
        refine ⟨_, rfl, ?_⟩
        rw [Mem.slice, List.getElem?_map, List.getElem?_range (by omega), Option.map_some, Nat.zero_add,
          Mem.memcpy_at hmiss]
        exact congrArg some (hbeyond x)
      by_cases hp : (lv2Handler config g ⟨s, fun _ => 1⟩ net).1 <+: ms
      · refine ⟨fun _ => 2, .inl fun hp2 => ?_⟩
        obtain ⟨m, hm, h1⟩ := hfirst 1 hl hp
        obtain ⟨m', hm', h2⟩ := hfirst 2 (hsame ▸ hl) hp2
        rw [Option.mem_def] at hm hm'
        rw [hm, Option.some.injEq] at hm'
        rw [← hm', h1] at h2
        exact absurd h2 (by decide)
      · exact ⟨_, .inl hp⟩
    · refine ⟨fun _ => 1, .inr ?_⟩
      have := lv2Loop_length_le (d := d 1) (k := getCurReadMsgLength (d 1)) (n := s.length)
        (g := HalfPacket.start) rfl
      rw [lv2Handler_eq hnet, lv2Loop_discard h6 hg hl]
      exact Nat.le_trans this (Nat.le_add_left _ _)
  · refine ⟨fun _ => 0, .inr ?_⟩
    by_cases h6 : s.length ≤ 6
    · rw [lv2Handler_eq hnet, lv2Loop_stop h6]; simp
    · exact lv2Handler_length_le hnet fun hg => by show g.missSize ≤ s.length; omega

omit hnet in
theorem Delivers.cons {g : HalfPacket} {ms segs : List Bytes} {s : Bytes}
    (h : Delivers config net g ms (s :: segs)) (b : Mem) :
    ∃ rest, (lv2Handler config g ⟨s, b⟩ net).1 ++ rest = ms ∧
      Delivers config net (lv2Handler config g ⟨s, b⟩ net).2 rest segs := by
  have hall : ∀ ss : List Seg, ss.map Seg.bytes = segs → (lv2Handler config g ⟨s, b⟩ net).1 ++
      feedLv2 config net (lv2Handler config g ⟨s, b⟩ net).2 ss = ms := by
    intro ss hss
    rw [← h (⟨s, b⟩ :: ss) (by rw [List.map_cons, hss]), feedLv2]
  have hsome : (segs.map fun s => (⟨s, fun _ => 0⟩ : Seg)).map Seg.bytes = segs := by
    rw [List.map_map]; exact List.map_id segs
  refine ⟨_, hall _ hsome, fun ss hss => ?_⟩
  exact List.append_cancel_left ((hall ss hss).trans (hall _ hsome).symm)

/-- What is handed on is no more than what was held and read. -/
theorem Delivers.length_le {g : HalfPacket} {ms segs : List Bytes} (h : Delivers config net g ms segs) :
    ms.flatten.length ≤ g.halfSize + segs.flatten.length := by
  induction segs generalizing g ms with
  | nil => rw [← h [] rfl]; exact Nat.zero_le _
  | cons s segs ih =>
    obtain ⟨b, hb⟩ := lv2Handler_probe hnet g s ms
    obtain ⟨rest, hrest, h'⟩ := h.cons b
    rcases hb with hb | hb
    · exact absurd ⟨rest, hrest⟩ hb
    · have := ih h'
      rw [← hrest]
      simp only [List.flatten_append, List.flatten_cons, List.length_append]
      omega

/-- If nothing may be skipped, a half packet is one of the next message. -/
theorem Delivers.half_exact {g : HalfPacket} {m : Bytes} {ms segs : List Bytes}
    (h : Delivers config net g (m :: ms) segs) (hne : ∀ s ∈ segs, s ≠ [])
    (hlen : (m :: ms).flatten.length = g.halfSize + segs.flatten.length) (hg : 0 < g.halfSize) :
    g.halfSize + g.missSize = m.length := by
  cases segs with
  | nil => exact absurd (h [] rfl) (List.cons_ne_nil m ms).symm
  | cons s segs =>
    obtain ⟨rest, hrest, h'⟩ := h.cons fun _ => 0
    have hle := h'.length_le hnet
    have hs := List.length_pos_of_ne_nil (hne s List.mem_cons_self)
    have htotal := congrArg (fun l : List Bytes => l.flatten.length) hrest
    simp only [List.flatten_append, List.length_append] at htotal
    rw [hlen, List.flatten_cons, List.length_append] at htotal
    rw [lv2Handler_eq hnet] at hle htotal hrest
    by_cases h6 : s.length ≤ 6
    · rw [lv2Loop_stop h6] at hle htotal
      simp only [List.flatten_nil, List.length_nil] at hle htotal
      omega
    · rcases Nat.eq_zero_or_pos (getCurReadMsgLength (Seg.mem ⟨s, fun _ => 0⟩)) with hl | hl
      · rw [hl, lv2Loop_fill (by show 6 < s.length; omega) hg, List.cons_append] at hrest
        rw [← (List.cons.inj hrest).1, Mem.slice_length]
      · have hd := lv2Loop_length_le (d := Seg.mem ⟨s, fun _ => 0⟩) (n := s.length) (g := HalfPacket.start)
          (k := getCurReadMsgLength (Seg.mem ⟨s, fun _ => 0⟩)) rfl
        rw [lv2Loop_discard (by show 6 < s.length; omega) hg hl] at hle htotal
        dsimp only at hle htotal
        omega

/-- A result of the loop that skips none of `n` bytes, hands on a beginning of `ms`
and holds a part of the message after that. -/
def Exact (r : List Bytes × HalfPacket) (n : Nat) (ms : List Bytes) : Prop :=
  ∃ rest, r.1 ++ rest = ms ∧ n ≤ r.1.flatten.length + r.2.halfSize ∧
    (0 < r.2.halfSize → ∀ m ∈ rest.head?, r.2.halfSize + r.2.missSize = m.length)

omit hnet in
/-- If the loop is exact on a piece of the stream, whatever stands behind it, the
piece can be read. -/
theorem readable_of_exact {ms : List Bytes} (hms : ∀ m ∈ ms, Complete m) {t r : Bytes}
    (hcut : t ++ r = ms.flatten)
    (h : ∀ d : Mem, d.Starts t → ∃ k g, g.halfSize = 0 ∧ Exact (lv2Loop d k g t.length) t.length ms) :
    Readable t.length ms := by
  induction ms generalizing t with
  | nil => exact List.length_eq_zero_iff.mpr (List.append_eq_nil_iff.mp hcut).1
  | cons m ms ih =>
    have hm := hms m List.mem_cons_self
    rcases Nat.eq_zero_or_pos t.length with h0 | hpos
    · exact .inl h0
    have h6 : 6 < t.length := by
      by_contra h6
      obtain ⟨k, g, hg, rest, -, hlen, -⟩ := h _ (Mem.starts_ofBytes t)
      rw [lv2Loop_stop (by omega), hg] at hlen
      simp only [List.flatten_nil, List.length_nil] at hlen
      omega
    refine .inr ⟨h6, ?_⟩
    by_cases hle : m.length ≤ t.length
    · obtain ⟨ht, hcut'⟩ := piece_whole hcut hle
      rw [if_pos hle]
      have hdrop : (t.drop m.length).length = t.length - m.length := List.length_drop
      rw [← hdrop]
      refine ih (fun x hx => hms x (List.mem_cons_of_mem m hx)) hcut' fun d hd => ?_
      -- put the message in front of the memory behind it
      have hstart : (Seg.mem ⟨m, d⟩).Starts t := by
        rw [ht, Mem.starts_append]
        refine ⟨Seg.mem_starts ⟨m, d⟩, ?_⟩
        rwa [show (Seg.mem ⟨m, d⟩).shift m.length = d from funext fun i => Seg.mem_beyond ⟨m, d⟩ i]
      obtain ⟨k, g, hg, rest, hrest, hlen, hhead⟩ := h _ hstart
      have hl : getCurReadMsgLength (Seg.mem ⟨m, d⟩) = m.length := hm.2 _ (Seg.mem_starts ⟨m, d⟩)
      have hmpos := List.length_pos_of_ne_nil hm.1
      rw [lv2Loop_whole h6 hg (by rw [hl]; exact hmpos) (by rw [hl]; exact hle), hl,
        show (Seg.mem ⟨m, d⟩).shift m.length = d from funext fun i => Seg.mem_beyond ⟨m, d⟩ i] at hrest hlen hhead
      simp only [List.flatten_cons, List.length_append, Mem.slice_length] at hlen
      rw [hdrop]
      exact ⟨m.length, g, hg, rest, (List.cons.inj hrest).2, by omega, hhead⟩
    · rw [if_neg hle, ← piece_cut hcut (Nat.not_le.mp hle)]
      intro d hd
      obtain ⟨k, g, hg, rest, hrest, hlen, hhead⟩ := h d hd
      rcases Nat.eq_zero_or_pos (getCurReadMsgLength d) with hl | hl
      · rw [lv2Loop_unknown hg hl, hg] at hlen
        simp only [List.flatten_nil, List.length_nil] at hlen
        omega
      · by_cases hle' : getCurReadMsgLength d ≤ t.length
        · rw [lv2Loop_whole h6 hg hl hle'] at hrest
          have := congrArg List.length (List.cons.inj hrest).1
          rw [Mem.slice_length] at this
          omega
        · rw [lv2Loop_half h6 hg (by omega)] at hrest hhead
          have := hhead hpos m (by rw [List.nil_append] at hrest; rw [hrest]; rfl)
          simp only at this
          omega

/-- The handler holds a part of the first message and the rest must come out: the
next segment completes it. -/
theorem continues_of_delivers {h : Nat} {ms segs : List Bytes} {s r : Bytes} {g : HalfPacket}
    (hg : Sync h ms g) (hs : s ≠ []) (hcut : s ++ r = ms.flatten.drop h)
    (hlen : ms.flatten.length = h + s.length + segs.flatten.length)
    (hd : Delivers config net g ms (s :: segs)) (h0 : 0 < h) : Continues h ms s := by
  obtain ⟨m, ms', rfl, hlt, hmiss, hbuf⟩ := hg.cut h0
  have hpos := List.length_pos_of_ne_nil hs
  have hhalf : 0 < g.halfSize := by rw [hg.half]; exact h0
  -- nothing is skipped in this segment
  have hall : ∀ b, ∃ rest, (lv2Handler config g ⟨s, b⟩ net).1 ++ rest = m :: ms' ∧
      h + s.length ≤ (lv2Handler config g ⟨s, b⟩ net).1.flatten.length +
        (lv2Handler config g ⟨s, b⟩ net).2.halfSize := by
    intro b
    obtain ⟨rest, hrest, hd'⟩ := hd.cons b
    have hle := hd'.length_le hnet
    have htotal := congrArg (fun l : List Bytes => l.flatten.length) hrest
    simp only [List.flatten_append, List.length_append] at htotal
    exact ⟨rest, hrest, by omega⟩
  simp only [lv2Handler_eq hnet] at hall
  have h6 : 6 < s.length := by
    by_contra h6
    obtain ⟨rest, -, hle⟩ := hall fun _ => 0
    rw [lv2Loop_stop (by show s.length ≤ 6; omega), hg.half] at hle
    simp only [List.flatten_nil, List.length_nil] at hle
    omega
  have hshows : Shows s 0 := by
    intro d hstart
    by_contra hl
    obtain ⟨rest, -, hle⟩ := hall (d.shift s.length)
    rw [Seg.mem_of_starts hstart, lv2Loop_discard h6 hhalf (by omega)] at hle
    have := lv2Loop_length_le (d := d) (k := getCurReadMsgLength d) (n := s.length) (g := HalfPacket.start) rfl
    omega
  refine ⟨h6, hshows, fun m' hm' => ?_⟩
  rw [List.head?_cons, Option.mem_some_iff] at hm'
  subst hm'
  by_contra hover
  -- the byte of the message that stands behind the segment could be any
  obtain ⟨x, hx⟩ : ∃ x : UInt8, m[h + s.length]? ≠ some x := by
    by_cases hz : m[h + s.length]? = some 0
    · exact ⟨1, by rw [hz]; decide⟩
    · exact ⟨0, hz⟩
  obtain ⟨rest, hrest, -⟩ := hall fun _ => x
  rw [hshows _ (Seg.mem_starts ⟨s, fun _ => x⟩), lv2Loop_fill h6 hhalf, List.cons_append] at hrest
  apply hx
  rw [← (List.cons.inj hrest).1, Mem.slice, List.getElem?_map, List.getElem?_range (by rw [hg.half]; omega),
    Option.map_some, Nat.zero_add, ← hg.half, Mem.memcpy_at (by omega)]
  exact congrArg some (Seg.mem_beyond ⟨s, fun _ => x⟩ 0)

/-- Over every memory the handler is exact on the next segment. -/
theorem exact_of_delivers {h : Nat} {ms segs : List Bytes} {s : Bytes} {g : HalfPacket} (hg : Sync h ms g)
    (hne : ∀ s ∈ segs, s ≠ []) (hlen : ms.flatten.length = h + s.length + segs.flatten.length)
    (hd : Delivers config net g ms (s :: segs)) (hc : 0 < h → Continues h ms s) (b : Mem) :
    Exact (lv2Handler config g ⟨s, b⟩ net) (h + s.length) ms := by
  obtain ⟨rest, hrest, hd'⟩ := hd.cons b
  have hle := hd'.length_le hnet
  have htotal := congrArg (fun l : List Bytes => l.flatten.length) hrest
  simp only [List.flatten_append, List.length_append] at htotal
  refine ⟨rest, hrest, by omega, fun hhalf m hm => ?_⟩
  cases rest with
  | nil => cases hm
  | cons m' rest =>
    rw [List.head?_cons, Option.mem_some_iff] at hm
    subst hm
    have hbound := lv2Handler_length_le hnet (g := g) (s := ⟨s, b⟩) fun h0 => by
      have h0' : 0 < h := by rw [← hg.half]; exact h0
      obtain ⟨m, ms', rfl, hlt, hmiss, -⟩ := hg.cut h0'
      have : m.length ≤ h + s.length := (hc h0').closes m rfl
      show g.missSize ≤ s.length
      omega
    rw [hg.half] at hbound
    dsimp only at hbound
    exact hd'.half_exact hnet hne (by omega) hhalf

theorem readable_of_delivers {h : Nat} {ms segs : List Bytes} {s r : Bytes} {g : HalfPacket}
    (hms : ∀ m ∈ ms, Complete m) (hg : Sync h ms g) (hne : ∀ s ∈ segs, s ≠ [])
    (hcut : s ++ r = ms.flatten.drop h) (hlen : ms.flatten.length = h + s.length + segs.flatten.length)
    (hd : Delivers config net g ms (s :: segs)) (hc : 0 < h → Continues h ms s) :
    Readable (h + s.length) ms := by
  have hex := exact_of_delivers hnet hg hne hlen hd hc
  simp only [lv2Handler_eq hnet] at hex
  rcases Nat.eq_zero_or_pos h with rfl | h0
  · rw [Nat.zero_add] at hex ⊢
    refine readable_of_exact hms (by rw [hcut, List.drop_zero]) fun d hd => ?_
    have := hex (d.shift s.length)
    rw [Seg.mem_of_starts hd] at this
    exact ⟨_, g, hg.half, this⟩
  · obtain ⟨m, ms', rfl, hlt, hmiss, hbuf⟩ := hg.cut h0
    obtain ⟨h6, hunlike, hcl⟩ := hc h0
    have hclose : m.length ≤ h + s.length := hcl m rfl
    have hhalf : 0 < g.halfSize := by rw [hg.half]; exact h0
    obtain ⟨hs, hcut'⟩ := piece_close hlt hcut hclose
    rw [← hmiss] at hs hcut'
    have hmlen : (m.drop h).length = g.missSize := by rw [List.length_drop, hmiss]
    have htail : (s.drop g.missSize).length = h + s.length - m.length := by rw [List.length_drop]; omega
    refine .inr ⟨by omega, ?_⟩
    rw [if_pos hclose, ← htail]
    refine readable_of_exact (fun x hx => hms x (List.mem_cons_of_mem m hx)) hcut' fun d hd => ?_
    -- put the end of the message in front of the memory
    have hshift : (Seg.mem ⟨m.drop h, d⟩).shift g.missSize = d := by
      rw [← hmlen]; exact funext fun i => Seg.mem_beyond ⟨m.drop h, d⟩ i
    have hstart : (Seg.mem ⟨m.drop h, d⟩).Starts s := by
      rw [hs, Mem.starts_append, hmlen, hshift]
      exact ⟨Seg.mem_starts ⟨m.drop h, d⟩, hd⟩
    obtain ⟨rest, hrest, hle, hhead⟩ := hex ((Seg.mem ⟨m.drop h, d⟩).shift s.length)
    rw [Seg.mem_of_starts hstart, hunlike _ hstart, lv2Loop_fill h6 hhalf, hshift, subSize,
      if_pos (by omega), ← show (s.drop g.missSize).length = s.length - g.missSize from List.length_drop]
      at hrest hle hhead
    simp only [List.flatten_cons, List.length_append, Mem.slice_length] at hle
    refine ⟨0, ⟨0, 0, _⟩, rfl, rest, (List.cons.inj hrest).2, ?_, hhead⟩
    have := hg.half
    omega

theorem fits_of_delivers {h : Nat} {ms segs : List Bytes} {g : HalfPacket} (hms : ∀ m ∈ ms, Complete m)
    (hg : Sync h ms g) (hne : ∀ s ∈ segs, s ≠ []) (hcut : segs.flatten = ms.flatten.drop h)
    (hh : h ≤ ms.flatten.length) (hd : Delivers config net g ms segs) : Fits h ms segs := by
  induction segs generalizing h ms g with
  | nil => trivial
  | cons s segs ih =>
    rw [List.flatten_cons] at hcut
    have hlen : ms.flatten.length = h + s.length + segs.flatten.length := by
      have := congrArg List.length hcut
      rw [List.length_append, List.length_drop] at this
      omega
    have hne' := fun x hx => hne x (List.mem_cons_of_mem s hx)
    have hc := fun h0 => continues_of_delivers hnet hg (hne s List.mem_cons_self) hcut hlen hd h0
    have hr := readable_of_delivers hnet hms hg hne' hcut hlen hd hc
    obtain ⟨hout, hsync⟩ := lv2Handler_fits hnet (s := ⟨s, fun _ => 0⟩) hms hg hcut hc hr
    obtain ⟨rest, hrest, hd'⟩ := hd.cons fun _ => 0
    have hsplit := complete_append_todo (h + s.length) ms
    rw [hout] at hrest
    rw [show rest = todo (h + s.length) ms from List.append_cancel_left (hrest.trans hsplit.symm)] at hd'
    refine ⟨⟨hc, hr⟩, ih (fun m hm => hms m (mem_of_mem_todo hm)) hsync hne' ?_ ?_ hd'⟩
    · show segs.flatten = (todo (h + s.length) ms).flatten.drop (pending (h + s.length) ms)
      rw [← flatten_drop_add, ← hcut, List.drop_left]
    · show pending (h + s.length) ms ≤ (todo (h + s.length) ms).flatten.length
      have h1 := length_eq (h + s.length) ms
      have h2 := congrArg (fun l : List Bytes => l.flatten.length) hsplit
      simp only [List.flatten_append, List.length_append] at h2
      omega

end Handler

/-- **Exact condition.** However the concatenation of whole messages is cut into
segments, the handler hands on exactly these messages, whatever stands behind the
segments, if and only if the cuts fit. -/
theorem delivers_iff_fits {config net : NetConfig} (hnet : config.Accepts net) {ms segs : List Bytes}
    (hms : ∀ m ∈ ms, Complete m) (hcut : segs.flatten = ms.flatten) (hne : ∀ s ∈ segs, s ≠ []) :
    Delivers config net HalfPacket.start ms segs ↔ Fits 0 ms segs := by
  constructor
  · intro hd
    exact fits_of_delivers hnet hms (Sync.idle rfl) hne (by rw [hcut, List.drop_zero]) (Nat.zero_le _) hd
  · intro hf ss hss
    subst hss
    exact fits_delivers hnet hms hcut hf

/-- A message of type `'5'`. -/
def sampleMsg : Bytes := 0x35 :: List.replicate 103 0

theorem sampleMsg_complete : ∀ m ∈ [sampleMsg, sampleMsg], Complete m := by
  intro m hm
  simp only [List.mem_cons, List.not_mem_nil, or_false, or_self] at hm
  subst hm
  exact ⟨List.cons_ne_nil _ _, shows_of_length (by decide) (by decide)⟩

/-- Two messages, the second one cut after 10 bytes. -/
theorem delivers_iff_fits_twoMessages :
    Fits 0 [sampleMsg, sampleMsg] [sampleMsg ++ sampleMsg.take 10, sampleMsg.drop 10] ∧
    (Delivers ⟨0, 0, 0⟩ ⟨1, 2, 3⟩ HalfPacket.start [sampleMsg, sampleMsg]
        [sampleMsg ++ sampleMsg.take 10, sampleMsg.drop 10] ↔
      Fits 0 [sampleMsg, sampleMsg] [sampleMsg ++ sampleMsg.take 10, sampleMsg.drop 10]) := by
  refine ⟨⟨⟨fun h => absurd h (by decide), .inr ⟨by decide, .inr ⟨by decide, ?_⟩⟩⟩,
    ⟨fun _ => ⟨by decide, ?_, ?_⟩, ?_⟩, ?_⟩, ?_⟩
  · exact shows_of_length (by decide) (by decide)
  · exact shows_of_length (by decide) (by decide)
  · decide
  · exact .inr ⟨by decide, rfl⟩
  · trivial
  · exact delivers_iff_fits (by decide) sampleMsg_complete (by simp) (by decide)

/-- A message of type `'a'` at the end of a segment is never read. -/
theorem typeA_dropped : ¬ ∀ (config net : NetConfig), config.Accepts net → ∀ ms segs : List Bytes,
    (∀ m ∈ ms, Complete m) → segs.flatten = ms.flatten → (∀ s ∈ segs, s ≠ []) →
    Delivers config net HalfPacket.start ms segs := by
  intro h
  have hd := h ⟨0, 0, 0⟩ ⟨1, 2, 3⟩ (by decide) [[0x61, 1, 1, 1, 1, 1]] [[0x61, 1, 1, 1, 1, 1]]
    (fun m hm => ?_) rfl (by decide) [⟨[0x61, 1, 1, 1, 1, 1], fun _ => 0⟩] rfl
  · rw [feedLv2, feedLv2, lv2Handler, if_pos (by decide), lv2Loop_stop (by decide)] at hd
    exact absurd hd (by decide)
  · rw [List.mem_singleton] at hm
    subst hm
    exact ⟨List.cons_ne_nil _ _, shows_typeA 1 1 1 1 (by decide)⟩

end MdInfoSet.L3.Lv2Reassembly
