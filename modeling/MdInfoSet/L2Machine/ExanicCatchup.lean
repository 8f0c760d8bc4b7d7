import MdInfoSet.L2Machine.ExanicRx

/-!
# `__exanic_rx_catchup` beside a card that keeps writing

The catch-up walks the ring backwards, one info word at a time, and settles behind the end
of frame it takes for the most recent one. The card writes on meanwhile, so that the words
it reads belong to different moments; their laps never decrease on the way down
(`Swept.reads`). Up to the first change of generation the walk is in the lap it began in,
below that in later ones.

**Where it settles.** An end of frame that was there when the walk began and is still there
when it ends is not passed over: the walk settles behind it or a later one (`scan_spec`).
The end of a frame already taken is therefore left behind, or is written over by then
(`catchup_spec`). As the card writes fewer chunks during a walk than the ring holds beside
the longest frame, there always is one.
-/
namespace MdInfoSet.L2.ExanicRx

open MdInfoSet.GenerationRing

variable {n : Nat} {card : Card} {g : Progress n} {c e m now t0 top : Nat} {s : Scan}

/-- The walk has found the end of frame at position `k`. -/
structure Found (card : Card) (g : Progress n) (t0 t1 : Nat) (s : Scan) (k : Nat) : Prop where
  found : s.eofFound = true
  chunk : s.eofChunk = k % n
  gen : s.eofGen = generation n k
  ends : card.EndsAt n k
  seen : ∃ t, t0 ≤ t ∧ t < t1 ∧ k < g.next t ∧ g.next t ≤ k + n

theorem Found.mono {t1 t1' k : Nat} (h : Found card g t0 t1 s k) (ht : t1 ≤ t1') : Found card g t0 t1' s k := by
  obtain ⟨t, h0, h1, hs⟩ := h.seen
  exact ⟨h.found, h.chunk, h.gen, h.ends, t, h0, Nat.lt_of_lt_of_le h1 ht, hs⟩

/-- The walk is through with the slots from `c` on; it began in the lap `top` and is in the lap `cur`. -/
structure Swept (card : Card) (g : Progress n) (e t0 c now top cur : Nat) (s : Scan) : Prop where
  breakGen : s.breakGen = UInt8.ofNat cur
  beforeBreak : s.beforeBreak = true ↔ top < cur
  top_le : top ≤ cur
  lap_le : n * cur + c < g.next now
  found : s.eofFound = true → ∃ k, Found card g t0 now s k ∧ k / n = top ∧
    c ≤ k % n
  past : c ≤ e % n → ∃ k, Found card g t0 now s k ∧ k / n = top ∧ e ≤ k

/-- The walk has looked for a change of generation at slot `c`, which shows the position `q`. -/
structure Reads (card : Card) (g : Progress n) (e t0 c now top q : Nat) (s : Scan) : Prop where
  breakGen : s.breakGen = generation n q
  beforeBreak : s.beforeBreak = true ↔ top < q / n
  top_le : top ≤ q / n
  found : s.eofFound = true → ∃ k, Found card g t0 now s k ∧ k / n = top ∧
    c < k % n
  past : c < e % n → ∃ k, Found card g t0 now s k ∧ k / n = top ∧ e ≤ k

/-- What slot `c` shows. -/
structure Shows (g : Progress n) (c now q : Nat) : Prop where
  slot : q % n = c
  lt : q < g.next now
  le : g.next now ≤ q + n

theorem shows_newest (now : Nat) (hc : c < n) : Shows g c now (newest n (g.next now) c) where
  slot := newest_mod hc
  lt := newest_lt (Nat.lt_of_lt_of_le hc (Nat.le_trans (Nat.le_mul_of_pos_left n (by decide)) (g.firstChunk_le now)))
  le := le_newest_add hc

theorem lt_of_same_div {k q : Nat} (h : k / n = q / n) (hm : k % n ≤ q % n) : k ≤ q := by
  have h1 := Nat.div_add_mod k n
  have h2 := Nat.div_add_mod q n
  rw [h] at h1
  omega

/-- What one turn of the walk leaves when it does not stop. -/
def Scan.turn (s : Scan) (chunk : Nat) (u : RxChunkInfo) : Scan :=
  if u.length ≠ 0 ∧ s.eofFound = false then s.eof chunk u else s

/-- The loop, one chunk at a time. -/
theorem scan_stop {view : View} {u : RxChunkInfo} (hu : (view now c).info = u)
    (h : u.length ≠ 0 ∧ (s.generation n c u).beforeBreak = true) :
    scan n view (c + 1) now s = ((s.generation n c u).eof c u, now + 1) := by
  subst hu
  simp only [scan, h.1, h.2, if_true, ne_eq, not_false_eq_true]

theorem scan_go {view : View} {u : RxChunkInfo} (hu : (view now c).info = u)
    (h : ¬ (u.length ≠ 0 ∧ (s.generation n c u).beforeBreak = true)) :
    scan n view (c + 1) now s = scan n view c (now + 1) ((s.generation n c u).turn c u) := by
  subst hu
  rw [scan]
  by_cases hlen : (view now c).info.length ≠ 0
  · have hb : (s.generation n c (view now c).info).beforeBreak = false := by simpa [hlen] using h
    cases hf : (s.generation n c (view now c).info).eofFound <;> simp [Scan.turn, hlen, hb, hf]
  · simp only [Scan.turn, hlen, false_and, if_false]

/-- The end of frame at slot `c`, where the walk has come to a later lap: it stops there. -/
theorem Reads.stop {q : Nat} (h : Reads card g e t0 c now top q s) (hq : Shows g c now q) (hnow : t0 ≤ now)
    (htop : e / n ≤ top + 1) (heof : card.EndsAt n q) (hbreak : s.beforeBreak = true) :
    ∃ k, Found card g t0 (now + 1) (s.eof c (card.info n q)) k ∧ e ≤ k := by
  refine ⟨q, ⟨rfl, hq.slot.symm, Card.info_generation, heof, now, hnow, Nat.lt_succ_self now, hq.lt, hq.le⟩, ?_⟩
  have hlap := h.beforeBreak.mp hbreak
  rcases Nat.lt_or_ge (e / n) (q / n) with hlt | hge
  · exact Nat.le_of_lt (Nat.lt_of_div_lt_div hlt)
  · refine lt_of_same_div (n := n) (by omega) ?_
    rw [hq.slot]
    by_contra hc
    obtain ⟨k, -, hk, hek⟩ := h.past (by omega)
    have := Nat.div_le_div_right (c := n) hek
    omega

/-- Elsewhere it goes on, with this end of frame if it is the first. -/
theorem Reads.turn (hn : 0 < n) {q : Nat} (h : Reads card g e t0 c now top q s) (hq : Shows g c now q) (hnow : t0 ≤ now)
    (he : card.EndsAt n e) (h0 : e < g.next t0) (hend : g.next now ≤ e + n) (hgo : ¬ ((card.info n q).length ≠ 0 ∧ s.beforeBreak = true)) :
    Swept card g e t0 c (now + 1) top (q / n) (s.turn c (card.info n q)) := by
  -- slot `c` shows `e` itself, if that is where it belongs
  have hself : c = e % n → q = e := by
    intro hc
    have h1 : e < g.next now := Nat.lt_of_lt_of_le h0 (g.mono hnow)
    have h3 := newest_eq hn h1 hend
    have h4 := newest_eq hn hq.lt hq.le
    rw [← h3, ← h4, hq.slot, hc]
  have hlt : g.next now ≤ g.next (now + 1) := g.mono (Nat.le_succ now)
  have hdiv := Nat.div_add_mod q n
  have hslot := hq.slot
  have hqlt := hq.lt
  unfold Scan.turn
  split
  · rename_i hfirst
    obtain ⟨hlen, hnone⟩ := hfirst
    have hsame : q / n = top := by
      have := h.beforeBreak.not.mp (fun hb => hgo ⟨hlen, hb⟩)
      have := h.top_le
      omega
    have hfound : Found card g t0 (now + 1) (s.eof c (card.info n q)) q :=
      ⟨rfl, hq.slot.symm, Card.info_generation, hlen, now, hnow, Nat.lt_succ_self now, hq.lt, hq.le⟩
    refine ⟨h.breakGen, h.beforeBreak, h.top_le, by omega, fun _ => ⟨q, hfound, hsame, by omega⟩, fun hc => ?_⟩
    rcases Nat.lt_or_eq_of_le hc with hc | hc
    · obtain ⟨k, hk, -⟩ := h.past hc
      rw [hk.found] at hnone
      cases hnone
    · exact ⟨q, hfound, hsame, Nat.le_of_eq (hself hc).symm⟩
  · rename_i hother
    refine ⟨h.breakGen, h.beforeBreak, h.top_le, by omega, fun hf => ?_, fun hc => ?_⟩
    · obtain ⟨k, hk, hkt, hck⟩ := h.found hf
      exact ⟨k, hk.mono (Nat.le_succ now), hkt, Nat.le_of_lt hck⟩
    · rcases Nat.lt_or_eq_of_le hc with hc | hc
      · obtain ⟨k, hk, hrest⟩ := h.past hc
        exact ⟨k, hk.mono (Nat.le_succ now), hrest⟩
      · -- `e` ends a frame, so one was found before, in the lap of `e`
        have heq := hself hc
        subst heq
        have hf : s.eofFound = true := by
          by_contra hf
          exact hother ⟨he, by simpa using hf⟩
        obtain ⟨k, hk, hkt, hck⟩ := h.found hf
        have hsame : q / n = top := by
          have := h.beforeBreak.not.mp (fun hb => hgo ⟨he, hb⟩)
          have := h.top_le
          omega
        exact ⟨k, hk.mono (Nat.le_succ now), hkt, lt_of_same_div (n := n) (by omega) (by omega)⟩

/-- The next slot down: its lap is no earlier, and a later one has another generation. -/
theorem Swept.reads (hn : 0 < n) {cur : Nat} (h : Swept card g e t0 (c + 1) now top cur s) (hc : c + 1 < n)
    (hnear : g.next now ≤ n * (top + 200)) :
    Reads card g e t0 c now top (newest n (g.next now) c)
      (s.generation n c (card.info n (newest n (g.next now) c))) := by
  have hq := shows_newest (g := g) now (show c < n by omega)
  generalize newest n (g.next now) c = q at hq
  have hqlt := hq.lt
  have hslot := hq.slot
  have hdiv := Nat.div_add_mod q n
  have hlap : cur ≤ q / n := by
    have hle := le_newest (n := n) (p := n * cur + c) (w := g.next now)
      (Nat.lt_trans (by omega) h.lap_le)
    have hmod : (n * cur + c) % n = c := by
      rw [Nat.mul_add_mod, Nat.mod_eq_of_lt (by omega)]
    rw [hmod, ← hslot, newest_eq hn hq.lt hq.le, hslot] at hle
    rw [Nat.le_div_iff_mul_le hn, Nat.mul_comm]
    omega
  have hbound : q / n < top + 200 := by
    rw [Nat.div_lt_iff_lt_mul hn, Nat.mul_comm]
    exact Nat.lt_of_lt_of_le hqlt hnear
  have htop := h.top_le
  have hsame : UInt8.ofNat (q / n) = UInt8.ofNat cur ↔ q / n = cur := by
    refine ⟨fun heq => ?_, fun heq => by rw [heq]⟩
    have := congrArg UInt8.toNat heq
    simp only [UInt8.toNat_ofNat'] at this
    omega
  have hfields : (s.generation n c (card.info n q)).eofFound = s.eofFound ∧
      (s.generation n c (card.info n q)).eofChunk = s.eofChunk ∧ (s.generation n c (card.info n q)).eofGen = s.eofGen := by
    unfold Scan.generation
    split <;> [exact ⟨rfl, rfl, rfl⟩; (split <;> exact ⟨rfl, rfl, rfl⟩)]
  have hkeep {k : Nat} (hk : Found card g t0 now s k) : Found card g t0 now (s.generation n c (card.info n q)) k :=
    ⟨hfields.1.trans hk.found, hfields.2.1.trans hk.chunk, hfields.2.2.trans hk.gen, hk.ends, hk.seen⟩
  have hbreak : (s.generation n c (card.info n q)).breakGen = generation n q ∧
      ((s.generation n c (card.info n q)).beforeBreak = true ↔ top < q / n) := by
    have hne : c ≠ n - 1 := by omega
    simp only [Scan.generation, if_neg hne, Card.info_generation, h.breakGen, ne_eq]
    rw [show generation n q = UInt8.ofNat (q / n) from rfl]
    split
    · rename_i hchange
      rw [hsame] at hchange
      exact ⟨rfl, by simp only [true_iff]; omega⟩
    · rename_i hchange
      rw [not_not, hsame] at hchange
      rw [hchange]
      exact ⟨h.breakGen, h.beforeBreak⟩
  refine ⟨hbreak.1, hbreak.2, by omega, fun hf => ?_, fun hce => ?_⟩
  · obtain ⟨k, hk, hkt, hck⟩ := h.found (hfields.1 ▸ hf)
    exact ⟨k, hkeep hk, hkt, by omega⟩
  · obtain ⟨k, hk, hrest⟩ := h.past hce
    exact ⟨k, hkeep hk, hrest⟩

/-! ## The whole walk -/

theorem scan_now (n : Nat) (view : View) (c now : Nat) (s : Scan) :
    now ≤ (scan n view c now s).2 ∧ (scan n view c now s).2 ≤ now + c := by
  induction c generalizing now s with
  | zero => exact ⟨Nat.le_refl now, Nat.le_refl now⟩
  | succ c ih =>
    by_cases h : (view now c).info.length ≠ 0 ∧ (s.generation n c (view now c).info).beforeBreak = true
    · rw [scan_stop rfl h]
      exact ⟨Nat.le_succ now, by omega⟩
    · rw [scan_go rfl h]
      have := ih (now + 1) ((s.generation n c (view now c).info).turn c (view now c).info)
      omega

/-- The rest of a walk, while the end of frame `e` is in the ring. -/
theorem scan_spec (hn : 0 < n) {cur : Nat} (h : Swept card g e t0 c now top cur s) (hnow : t0 ≤ now) (hc : c < n)
    (he : card.EndsAt n e) (h0 : e < g.next t0) (htop : e / n ≤ top + 1)
    (hend : g.next (scan n (ring n card g) c now s).2 ≤ e + n)
    (hnear : g.next (scan n (ring n card g) c now s).2 ≤ n * (top + 200)) :
    ∃ k, Found card g t0 (scan n (ring n card g) c now s).2 (scan n (ring n card g) c now s).1 k ∧ e ≤ k := by
  induction c generalizing now s cur with
  | zero =>
    obtain ⟨k, hk, -, hek⟩ := h.past (Nat.zero_le _)
    exact ⟨k, hk, hek⟩
  | succ c ih =>
    have hle := g.mono (scan_now n (ring n card g) (c + 1) now s).1
    have hreads := h.reads hn hc (Nat.le_trans hle hnear)
    have hshows := shows_newest (g := g) now (show c < n by omega)
    have hpast := Nat.le_trans hle hend
    by_cases hstop : (card.info n (newest n (g.next now) c)).length ≠ 0 ∧
        (s.generation n c (card.info n (newest n (g.next now) c))).beforeBreak = true
    · rw [scan_stop (ring_info now c) hstop]
      exact hreads.stop hshows hnow htop hstop.1 hstop.2
    · rw [scan_go (ring_info now c) hstop] at hend hnear ⊢
      exact ih (hreads.turn hn hshows hnow he h0 hpast hstop) (by omega) (by omega) hend hnear

/-- A catch-up in a ring that keeps the end of frame `e` settles behind `e` or a later one. -/
theorem exanicRxCatchup_from (hn : 0 < n) (rx : Rx) (he : card.EndsAt n e) (h0 : e < g.next t0)
    (hend : g.next (exanicRxCatchup n (ring n card g) rx t0).2 ≤ e + n) :
    ∃ k, (exanicRxCatchup n (ring n card g) rx t0).1.At n k (k + 1) ∧ card.EndsAt n k ∧ e ≤ k ∧
      ∃ t, t0 ≤ t ∧ t < (exanicRxCatchup n (ring n card g) rx t0).2 ∧ k < g.next t ∧
        g.next t ≤ k + n := by
  have hlast : n - 1 < n := Nat.sub_lt hn Nat.one_pos
  have hshows := shows_newest (g := g) t0 hlast
  generalize hq : newest n (g.next t0) (n - 1) = q at hshows
  have hqlt := hshows.lt
  have hqle := hshows.le
  have hslot := hshows.slot
  have hdiv := Nat.div_add_mod q n
  rw [exanicRxCatchup_eq, Rx.settle_snd] at hend ⊢
  have hle := g.mono (scan_now n (ring n card g) n t0 .start).1
  have htop : e / n ≤ q / n + 1 := by
    rw [← Nat.add_div_right q hn]
    exact Nat.div_le_div_right (by omega)
  have hnear : g.next (scan n (ring n card g) n t0 .start).2 ≤
      n * (q / n + 200) := by
    rw [Nat.mul_add]
    omega
  have hreads : Reads card g e t0 (n - 1) t0 (q / n) q
      (Scan.start.generation n (n - 1) (card.info n q)) := by
    have hfirst : Scan.start.generation n (n - 1) (card.info n q) =
        { Scan.start with breakGen := (card.info n q).generation, breakChunk := n - 1 } := by
      rw [Scan.generation, if_pos rfl]
    rw [hfirst]
    refine ⟨Card.info_generation, by simp [Scan.start], Nat.le_refl _, fun hf => by simp [Scan.start] at hf, fun hc => ?_⟩
    exact absurd (Nat.le_sub_one_of_lt (Nat.mod_lt e hn)) (Nat.not_le.mpr hc)
  have hgo : ¬ ((card.info n q).length ≠ 0 ∧
      (Scan.start.generation n (n - 1) (card.info n q)).beforeBreak = true) := by
    rintro ⟨-, hb⟩
    have := hreads.beforeBreak.mp hb
    omega
  have hscan := scan_go ((ring_info t0 _).trans (congrArg (card.info n) hq)) hgo
  rw [Nat.sub_add_cancel hn] at hscan
  have hswept := hreads.turn hn hshows (Nat.le_refl t0) he h0 (Nat.le_trans hle hend) hgo
  rw [hscan] at hend hnear ⊢
  obtain ⟨k, hk, hek⟩ := scan_spec hn hswept (Nat.le_succ t0) hlast he h0 htop hend hnear
  exact ⟨k, Rx.at_settle hn hk.found hk.chunk hk.gen, hk.ends, hek, hk.seen⟩

/-- The card writes fewer chunks during a walk than the ring holds beside the longest frame. -/
def Progress.Rate (g : Progress n) (m : Nat) : Prop :=
  ∀ t, g.next (t + n) + m ≤ g.next t + n

/-- **Catching up.** The catch-up settles behind an end of frame it saw in the ring; one that was
taken before is left behind, or is no longer in the ring. -/
theorem exanicRxCatchup_spec (hn : 0 < n) (rx : Rx) {d : Nat} (hm : card.FramesWithin n m) (hrate : g.Rate m)
    (hd : card.EndsAt n d) (hd0 : d < g.next t0) (hdf : firstChunk n ≤ d + 1) :
    ∃ k, (exanicRxCatchup n (ring n card g) rx t0).1.At n k (k + 1) ∧ card.EndsAt n k ∧ firstChunk n ≤ k + 1 ∧
      (d ≤ k ∨ d + n < g.next (exanicRxCatchup n (ring n card g) rx t0).2) ∧
      ∃ t, t0 ≤ t ∧ t < (exanicRxCatchup n (ring n card g) rx t0).2 ∧ k < g.next t ∧
        g.next t ≤ k + n := by
  rcases Nat.lt_or_ge (d + n) (g.next (exanicRxCatchup n (ring n card g) rx t0).2) with hgone | hthere
  · -- some end of frame is there: the last one the driver made, or one of the last `m` chunks
    have hwalk := scan_now n (ring n card g) n t0 .start
    rw [exanicRxCatchup_eq, Rx.settle_snd] at hgone
    have hstart := g.firstChunk_le t0
    have htime := Nat.le_trans (Nat.add_le_add_right (g.mono hwalk.2) m) (hrate t0)
    have hmono := g.mono hwalk.1
    have hfirst : n ≤ firstChunk n := Nat.le_mul_of_pos_left n (by decide)
    obtain ⟨e, hle, hlt, he⟩ := hm (g.next t0 - m)
    have hex : ∃ e', card.EndsAt n e' ∧ e' < g.next t0 ∧ g.next t0 ≤ e' + m ∧ firstChunk n ≤ e' + 1 := by
      rcases Nat.lt_or_ge (e + 1) (firstChunk n) with hbefore | hafter
      · exact ⟨firstChunk n - 1, Card.endsAt_of_lt (by omega), by omega, by omega, by omega⟩
      · exact ⟨e, he, by omega, by omega, hafter⟩
    obtain ⟨e', he', h1, h2, h3⟩ := hex
    obtain ⟨k, hat, hk, hek, hseen⟩ := exanicRxCatchup_from hn rx he' h1 (by rw [exanicRxCatchup_eq, Rx.settle_snd]; omega)
    exact ⟨k, hat, hk, by omega, .inr hgone, hseen⟩
  · obtain ⟨k, hat, hk, hdk, hseen⟩ := exanicRxCatchup_from hn rx hd hd0 hthere
    exact ⟨k, hat, hk, by omega, .inl hdk, hseen⟩

end MdInfoSet.L2.ExanicRx
