import MdInfoSet.L2Machine.ExanicCatchup

/-!
# Receiving frames while the card writes them

`exanic_receive_frame` copies the chunks of a frame one after another out of a ring the card
may be writing over at that very moment. It knows by one look afterwards whether its copy is
good: the *sentinel*, the last chunk of the frame before, is the first slot the card would
have come to. If the sentinel still stands, no byte of the copy was touched
(`InFrame.last`).

Generations are a byte, so two laps that are 256 apart look the same. The results assume
that the card does not get so far ahead within two calls (`Paced`), and that it does not
outrun the walk of the catch-up (`Progress.Rate`).

**Frames.** Over any number of calls, at whatever moments the card's writes fall
(`calls_trail`): every frame handed out is a whole frame of the card, byte for byte, with its
timestamp and status; it is the one right behind the frame before, unless an overflow was
reported in between; no frame is handed out twice, nor one before an earlier one. An overflow
is reported only when the card has written over the sentinel, and "no frame" only when not a
chunk of the next frame is written.
-/
namespace MdInfoSet.L5.ExanicReader

open MdInfoSet.GenerationRing MdInfoSet.L2.ExanicRx

variable {n : Nat} {card : Card} {g : Progress n} {m s d p start now rxBufSize : Nat} {r : Received}

/-- The frame of the chunks `f`, …, `e`. -/
def frame (n : Nat) (card : Card) (f e : Nat) : Bytes := card.bytes n f (e + 1 - f)

/-- The status bits of the frame that ends at `e`. -/
def status (n : Nat) (card : Card) (e : Nat) : UInt8 := (card.info n e).frameStatus &&& exanicRxFrameErrorMask

/-- What a call that begins at `start` does for a reader whose last frame ended at `s`, where no
frame up to `d` is to be handed out any more. The last two places are `s` and `d` afterwards. -/
inductive Step (card : Card) (g : Progress n) (start : Nat) (r : Received) (s d : Nat) : Nat → Nat → Prop
  | idle (hret : r.ret = 0) (hnext : g.next start = s + 1) : Step card g start r s d s d
  | frame (e : Nat) (hframe : card.FrameAt n (s + 1) e) (hnew : d ≤ s) (hok : status n card e = 0)
      (hbuf : r.rxBuf = frame n card (s + 1) e) (hret : r.ret = r.rxBuf.length)
      (hts : r.timestamp = some (card.info n e).timestamp) : Step card g start r s d e e
  | bad (e : Nat) (hframe : card.FrameAt n (s + 1) e) (hnew : d ≤ s) (hstatus : status n card e ≠ 0)
      (hret : r.ret = -(status n card e).toNat) : Step card g start r s d e e
  | lapped (s' : Nat) (hret : r.ret = -exanicRxFrameSwovfl) (hover : s + n < g.next r.now)
      (hends : card.EndsAt n s') : Step card g start r s d s' d

/-- The reader stands behind the frame that ends at `s`, whose end it has seen since `since`. -/
structure Settled (card : Card) (g : Progress n) (rx : Rx) (s d since now : Nat) : Prop where
  stands : rx.At n s (s + 1)
  ends : card.EndsAt n s
  first : firstChunk n ≤ s + 1
  seen : ∃ t, since ≤ t ∧ t ≤ now ∧ s < g.next t ∧ g.next t ≤ s + n
  floorEnds : card.EndsAt n d
  floorFirst : firstChunk n ≤ d + 1
  floorLt : d < g.next now
  floor : d ≤ s ∨ d + n < g.next now

/-- A call that ends in a catch-up. -/
theorem lapped_spec (hn : 0 < n) {rx : Rx} {buf : Bytes} (hm : card.FramesWithin n m) (hrate : g.Rate m)
    (hd : card.EndsAt n d) (hdf : firstChunk n ≤ d + 1) (hd0 : d < g.next now) (hstart : start ≤ now)
    (hover : s + n < g.next now) (hr : r = lapped n (ring n card g) rx buf now) :
    ∃ s', Step card g start r s d s' d ∧ Settled card g r.rx s' d start r.now := by
  obtain ⟨k, hat, hk, hkf, hfloor, t, ht0, ht1, hkt⟩ := exanicRxCatchup_spec hn rx hm hrate hd hd0 hdf
  have hnow : r.now = (exanicRxCatchup n (ring n card g) rx now).2 := by rw [hr, lapped]
  have hrx : r.rx = (exanicRxCatchup n (ring n card g) rx now).1 := by rw [hr, lapped]
  have hle : g.next now ≤ g.next r.now := by
    rw [hnow]
    exact g.mono (by omega)
  refine ⟨k, .lapped k (by rw [hr, lapped]) (by omega) hk, ?_⟩
  rw [hrx, hnow] at *
  exact ⟨hat, hk, hkf, ⟨t, by omega, by omega, hkt⟩, hd, hdf, by omega, hfloor⟩

/-! ## Inside a frame -/

/-- The chunks behind `s` and before `p` are copied, and the info word of `p` is read. -/
structure InFrame (card : Card) (g : Progress n) (s p start : Nat) (u : RxChunkInfo) (rx : Rx) (size : Nat)
    (buf : Bytes) (now : Nat) : Prop where
  stands : rx.At n s p
  info : u = card.info n p
  after : s < p
  inner : ∀ q, s < q → q < p → ¬ card.EndsAt n q
  seen : ∃ t, start ≤ t ∧ t < now ∧ p < g.next t ∧ g.next t ≤ p + n
  sum : size = exanicRxChunkPayloadSize * (p - (s + 1))
  len : buf.length = size
  -- good, if the card has not come round to the sentinel
  copied : g.next now ≤ s + n → buf = card.bytes n (s + 1) (p - (s + 1))

theorem copyPayload_length (view : View) (now chunk len : Nat) : (copyPayload view now chunk len).length = len := by
  simp [copyPayload]

variable {u : RxChunkInfo} {rx : Rx} {size : Nat} {buf : Bytes}

theorem InFrame.written (h : InFrame card g s p start u rx size buf now) : p < g.next now := by
  obtain ⟨t, -, ht, hp, -⟩ := h.seen
  exact Nat.lt_of_lt_of_le hp (g.mono (Nat.le_of_lt ht))

theorem InFrame.start_le (h : InFrame card g s p start u rx size buf now) : start ≤ now := by
  obtain ⟨t, h0, ht, -⟩ := h.seen
  omega

/-- The frame ends within `m` chunks. -/
theorem InFrame.lt (h : InFrame card g s p start u rx size buf now) (hm : card.FramesWithin n m) : p - (s + 1) < m := by
  obtain ⟨e, he0, he1, he⟩ := hm (s + 1)
  have : p ≤ e := by
    by_contra hlt
    exact h.inner e (by omega) (by omega) he
  omega

/-- One more chunk is copied; its bytes are right if the card is not at the sentinel by then. -/
theorem InFrame.copy (hn : 0 < n) (h : InFrame card g s p start u rx size buf now) {len : Nat}
    (hlen : card.chunkBytes n p = (card.payload n p).slice 0 len) (hgood : g.next (now + len) ≤ s + n) :
    buf ++ copyPayload (ring n card g) now (p % n) len = card.bytes n (s + 1) (p + 1 - (s + 1)) := by
  have hafter := h.after
  have hk : p + 1 - (s + 1) = p - (s + 1) + 1 := by omega
  rw [hk, Card.bytes_succ, ← h.copied (Nat.le_trans (g.mono (by omega)) hgood),
    copyPayload_eq hn h.written (by omega), ← hlen]
  congr 2
  omega

/-- The info word of the next chunk is read, once the payload of this one is copied. -/
theorem InFrame.next (hn : 0 < n) (h : InFrame card g s p start u rx size buf now) (hinner : ¬ card.EndsAt n p) {t : Nat}
    (ht : now + exanicRxChunkPayloadSize ≤ t) (hnewest : newest n (g.next t) ((p + 1) % n) = p + 1)
    (hwritten : p + 1 < g.next t) :
    InFrame card g s (p + 1) start (card.info n (p + 1)) (rx.advance n) (size + exanicRxChunkPayloadSize)
      (buf ++ copyPayload (ring n card g) now (p % n) exanicRxChunkPayloadSize) (t + 1) := by
  have hafter := h.after
  have hstart := h.start_le
  have hseen := le_newest_add (w := g.next t) (Nat.mod_lt (p + 1) hn)
  rw [hnewest] at hseen
  refine ⟨h.stands.advance hn, rfl, by omega, ?_, ⟨t, by omega, Nat.lt_succ_self t, hwritten, hseen⟩, ?_, ?_, ?_⟩
  · intro q hq hqp
    rcases Nat.lt_or_eq_of_le (Nat.le_of_lt_succ hqp) with hlt | rfl
    · exact h.inner q hq hlt
    · exact hinner
  · rw [show p + 1 - (s + 1) = p - (s + 1) + 1 by omega, Nat.mul_succ, ← h.sum]
  · rw [List.length_append, copyPayload_length, h.len]
  · intro hgood
    exact h.copy hn (by rw [Card.chunkBytes, if_neg hinner]) (Nat.le_trans (g.mono (by omega)) hgood)

/-- A chunk fits into the buffer, as the frame does. -/
theorem InFrame.fits (h : InFrame card g s p start u rx size buf now) (hm : card.FramesWithin n m)
    (hfit : exanicRxChunkPayloadSize * m ≤ rxBufSize) : size + exanicRxChunkPayloadSize ≤ rxBufSize := by
  have := Nat.mul_le_mul_left exanicRxChunkPayloadSize (Nat.succ_le_of_lt (h.lt hm))
  rw [Nat.mul_succ, ← h.sum] at this
  omega

/-- The end of the frame. -/
theorem InFrame.last (hn : 0 < n) (h : InFrame card g s p start u rx size buf now) (hm : card.FramesWithin n m)
    (hrate : g.Rate m) (hfit : exanicRxChunkPayloadSize * m ≤ rxBufSize)
    (hfirst : firstChunk n ≤ s + 1) (hd : card.EndsAt n d) (hdf : firstChunk n ≤ d + 1) (hd0 : d < g.next start)
    (hfloor : d ≤ s ∨ d + n < g.next start) (hend : card.EndsAt n p)
    (hr : r = lastChunk n (ring n card g) rxBufSize u (p % n) (rx.advance n) size buf now)
    (hlag : g.next r.now ≤ s + 254 * n) :
    ∃ s' d', Step card g start r s d s' d' ∧ Settled card g r.rx s' d' start r.now := by
  obtain ⟨t, ht0, ht1, hpt, hpt'⟩ := h.seen
  have hafter := h.after
  have hu := h.info
  have hstands := h.stands.advance hn
  have hlen := card.length_le (show firstChunk n ≤ p by omega)
  have hfits := h.fits hm hfit
  have hsize : size + u.length.toNat ≤ rxBufSize := by
    rw [hu]
    omega
  have hbytes : card.chunkBytes n p = (card.payload n p).slice 0 u.length.toNat := by
    rw [Card.chunkBytes, if_pos hend, hu]
  have hstart := h.start_le
  have hpast : g.next start ≤ g.next (now + u.length.toNat) := g.mono (by omega)
  have hps : p < g.next (now + u.length.toNat) := Nat.lt_of_lt_of_le h.written (g.mono (by omega))
  have hframe : card.FrameAt n (s + 1) p := ⟨hfirst, by omega, hend, fun q hq => h.inner q (by omega)⟩
  rw [lastChunk, if_neg (by omega)] at hr
  simp only [hstands.sentinelChunk, hstands.sentinelChunkGeneration, ring_info, Card.info_generation] at hr
  split at hr
  · -- the sentinel is gone
    rename_i hgone
    have hover : s + n < g.next (now + u.length.toNat) := by
      by_contra hle
      exact hgone (by rw [newest_eq hn (by omega) (by omega)])
    have hsucc : g.next (now + u.length.toNat) ≤ g.next (now + u.length.toNat + 1) := g.mono (Nat.le_succ _)
    obtain ⟨s', hstep, hsettled⟩ := lapped_spec (s := s) hn hm hrate hd hdf (show d < g.next (now + u.length.toNat + 1) by omega)
      (show start ≤ now + u.length.toNat + 1 by omega) (by omega) hr
    exact ⟨s', d, hstep, hsettled⟩
  · -- it stands: the copy is good, and the frames up to `d` are behind
    rename_i hstand
    rw [not_not] at hstand
    have hnow : r.now = now + u.length.toNat + 1 := by
      rw [hr]
      split <;> rfl
    have hmono : g.next (now + u.length.toNat) ≤ g.next r.now := by
      rw [hnow]
      exact g.mono (Nat.le_succ _)
    have hgood := GenerationRing.stands hn (by omega) (by omega) hstand
    have hbuf := h.copy hn hbytes hgood
    have hnew : d ≤ s := by omega
    have hlength : (buf ++ copyPayload (ring n card g) now (p % n) u.length.toNat).length =
        size + u.length.toNat := by
      rw [List.length_append, copyPayload_length, h.len]
    have hsettled (hrx : r.rx = { rx.advance n with sentinelChunk := p % n, sentinelChunkGeneration := u.generation }) :
        Settled card g r.rx p p start r.now := by
      refine ⟨?_, hend, by omega, ⟨t, ht0, by omega, hpt, hpt'⟩, hend, by omega, by omega, .inl (Nat.le_refl p)⟩
      rw [hrx]
      exact ⟨hstands.nextChunk, hstands.generation, rfl, by simp only [hu, Card.info_generation]⟩
    split at hr
    · rename_i hbad
      rw [hu] at hbad
      exact ⟨p, p, .bad p hframe hnew hbad (by rw [hr, hu, status]), hsettled (by rw [hr])⟩
    · rename_i hok
      rw [hu, not_not] at hok
      refine ⟨p, p, .frame p hframe hnew hok (by rw [hr, frame, ← hbuf]) ?_ (by rw [hr, hu]), hsettled (by rw [hr])⟩
      rw [hr]
      exact congrArg Nat.cast hlength.symm

/-- The next chunk's info word, once the wait for it is over. -/
theorem spin_spec {view : View} {fuel now' : Nat} {u' : RxChunkInfo}
    (h : spin view rx fuel now = some (u', now')) :
    ∃ t, now ≤ t ∧ now' = t + 1 ∧ u' = (view t rx.nextChunk).info ∧ u'.generation ≠ rx.generation - 1 := by
  induction fuel generalizing now with
  | zero => simp [spin] at h
  | succ fuel ih =>
    rw [spin] at h
    split at h
    · obtain ⟨t, ht, hrest⟩ := ih h
      exact ⟨t, by omega, hrest⟩
    · rename_i hne
      cases h
      exact ⟨now, Nat.le_refl now, rfl, rfl, hne⟩

theorem lapped_now (view : View) (rx : Rx) (buf : Bytes) (now : Nat) : now ≤ (lapped n view rx buf now).now := by
  rw [lapped, exanicRxCatchup_eq, Rx.settle_snd]
  exact (scan_now n view n now .start).1

theorem lastChunk_now (view : View) (chunk : Nat) (rx : Rx) (buf : Bytes) (now : Nat) :
    now ≤ (lastChunk n view rxBufSize u chunk rx size buf now).now := by
  rw [lastChunk]
  split
  · exact Nat.le_refl now
  · dsimp only
    split
    · exact Nat.le_trans (by omega) (lapped_now _ _ _ _)
    · split <;> (dsimp only; omega)

/-- Time passes. -/
theorem frameLoop_now {view : View} {fuel : Nat}
    (h : frameLoop n view rxBufSize fuel u rx size buf now = some r) : now ≤ r.now := by
  induction fuel generalizing u rx size buf now with
  | zero => simp [frameLoop] at h
  | succ fuel ih =>
    rw [frameLoop] at h
    dsimp only at h
    split at h
    · cases h
      exact lastChunk_now _ _ _ _ _
    · obtain ⟨⟨u', now'⟩, hspin, hrest⟩ := Option.bind_eq_some_iff.mp h
      obtain ⟨t, ht, hnow', -⟩ := spin_spec hspin
      have hle : now ≤ t := by
        refine Nat.le_trans ?_ ht
        split <;> omega
      dsimp only at hrest
      split at hrest
      · cases hrest
        exact Nat.le_trans (by omega) (lapped_now _ _ _ _)
      · exact Nat.le_trans (by omega) (ih hrest)

/-- The rest of a call that has come to the chunk `p` of a frame. -/
theorem frameLoop_spec (hn : 0 < n) {fuel : Nat} (h : InFrame card g s p start u rx size buf now)
    (hm : card.FramesWithin n m) (hrate : g.Rate m) (hfit : exanicRxChunkPayloadSize * m ≤ rxBufSize)
    (hfirst : firstChunk n ≤ s + 1) (hd : card.EndsAt n d) (hdf : firstChunk n ≤ d + 1)
    (hd0 : d < g.next start) (hfloor : d ≤ s ∨ d + n < g.next start)
    (hr : frameLoop n (ring n card g) rxBufSize fuel u rx size buf now = some r)
    (hlag : g.next r.now ≤ s + 254 * n) :
    ∃ s' d', Step card g start r s d s' d' ∧ Settled card g r.rx s' d' start r.now := by
  induction fuel generalizing p u rx size buf now with
  | zero => simp [frameLoop] at hr
  | succ fuel ih =>
    rw [frameLoop] at hr
    dsimp only at hr
    split at hr
    · rename_i hlen
      have hend : card.EndsAt n p := by rwa [Card.EndsAt, ← h.info]
      have hr' := (Option.some.inj hr).symm
      rw [h.stands.nextChunk] at hr'
      exact h.last hn hm hrate hfit hfirst hd hdf hd0 hfloor hend hr' hlag
    · rename_i hlen
      have hinner : ¬ card.EndsAt n p := fun he => hlen (by rwa [Card.EndsAt, ← h.info] at he)
      have hafter := h.after
      have hstart := h.start_le
      have hnext := h.stands.advance hn
      simp only [h.fits hm hfit, if_true, h.stands.nextChunk] at hr
      obtain ⟨⟨u', now'⟩, hspin, hrest⟩ := Option.bind_eq_some_iff.mp hr
      obtain ⟨t, ht, hnow', hu', hne'⟩ := spin_spec hspin
      have hr' : now' ≤ r.now := by
        dsimp only at hrest
        split at hrest
        · cases hrest
          exact lapped_now _ _ _ _
        · exact frameLoop_now hrest
      have hbehind : Behind n (g.next t) (p + 1) := by
        have h1 : g.next now ≤ g.next t := g.mono (by omega)
        have h2 : g.next t ≤ g.next r.now := g.mono (by omega)
        have h3 : n ≤ firstChunk n := Nat.le_mul_of_pos_left n (by decide)
        have := h.written
        exact ⟨hn, by omega, by omega, by omega⟩
      rw [hnext.nextChunk, ring_info] at hu'
      have hgen : u'.generation = generation n (newest n (g.next t) ((p + 1) % n)) := by
        rw [hu', Card.info_generation]
      dsimp only at hrest
      split at hrest
      · -- the card has written over the next chunk
        rename_i hgone
        rw [hnext.generation, hgen] at hgone hne'
        have hover := hbehind.gone hgone hne'
        have h1 : g.next start ≤ g.next now' := g.mono (by omega)
        have h2 : g.next t ≤ g.next now' := g.mono (by omega)
        obtain ⟨s', hstep, hsettled⟩ := lapped_spec (s := s) hn hm hrate hd hdf (show d < g.next now' by omega)
          (show start ≤ now' by omega) (by omega) (Option.some.inj hrest).symm
        exact ⟨s', d, hstep, hsettled⟩
      · rename_i hhere
        rw [not_not, hnext.generation, hgen] at hhere
        obtain ⟨hnewest, hwritten⟩ := hbehind.here hhere
        rw [hnewest] at hu'
        subst hu' hnow'
        exact ih (h.next hn hinner ht hnewest hwritten) hrest

/-! ## Calls -/

/-- **One call**, by a reader that has seen the end of its last frame since `since`. -/
theorem exanicReceiveFrame_spec (hn : 0 < n) {since fuel : Nat} (h : Settled card g rx s d since now)
    (hm : card.FramesWithin n m) (hrate : g.Rate m) (hfit : exanicRxChunkPayloadSize * m ≤ rxBufSize)
    (hstart : now ≤ start) (hr : exanicReceiveFrame n (ring n card g) rx rxBufSize fuel start = some r)
    (hlag : g.next r.now ≤ g.next since + 253 * n) :
    ∃ s' d', Step card g start r s d s' d' ∧ Settled card g r.rx s' d' start r.now := by
  obtain ⟨t, ht0, ht1, hst, hst'⟩ := h.seen
  have hsince : g.next since ≤ g.next t := g.mono ht0
  have htnow : g.next t ≤ g.next start := g.mono (by omega)
  have hnow : g.next now ≤ g.next start := g.mono hstart
  have hd0 := h.floorLt
  have hfloor : d ≤ s ∨ d + n < g.next start := h.floor.imp_right fun hd => by omega
  have hlapn : n ≤ firstChunk n := Nat.le_mul_of_pos_left n (by decide)
  have hfirst := h.first
  have hle : start + 1 ≤ r.now := by
    rw [exanicReceiveFrame] at hr
    split at hr
    · exact frameLoop_now hr
    · split at hr <;> cases hr
      · exact Nat.le_refl _
      · exact lapped_now _ _ _ _
  have hlt : g.next start ≤ g.next r.now := g.mono (by omega)
  have hbehind : Behind n (g.next start) (s + 1) := ⟨hn, by omega, by omega, by omega⟩
  rw [exanicReceiveFrame] at hr
  simp only [h.stands.nextChunk, h.stands.generation, ring_info, Card.info_generation] at hr
  split at hr
  · rename_i hhere
    obtain ⟨hnewest, hwritten⟩ := hbehind.here hhere
    rw [hnewest] at hr
    have hseen := le_newest_add (w := g.next start) (Nat.mod_lt (s + 1) hn)
    rw [hnewest] at hseen
    have hin : InFrame card g s (s + 1) start (card.info n (s + 1)) rx 0 [] (start + 1) :=
      ⟨h.stands, rfl, Nat.lt_succ_self s, fun q hq hqs => by omega,
        ⟨start, Nat.le_refl _, Nat.lt_succ_self _, hwritten, hseen⟩, by simp, rfl, fun _ => by simp [Card.bytes]⟩
    exact frameLoop_spec hn hin hm hrate hfit hfirst h.floorEnds h.floorFirst (by omega) hfloor hr (by omega)
  · rename_i hnot
    split at hr
    · rename_i hprev
      have hnext := hbehind.not_yet hprev
      cases hr
      refine ⟨s, d, .idle rfl hnext, h.stands, h.ends, h.first, ⟨start, Nat.le_refl _, Nat.le_succ _, by omega, by omega⟩,
        h.floorEnds, h.floorFirst, by omega, hfloor.imp_right fun hd => by omega⟩
    · rename_i hother
      have hover := hbehind.gone hnot hother
      have hsucc : g.next start ≤ g.next (start + 1) := g.mono (Nat.le_succ _)
      obtain ⟨s', hstep, hsettled⟩ := lapped_spec (s := s) hn hm hrate h.floorEnds h.floorFirst
        (show d < g.next (start + 1) by omega) (Nat.le_succ start) (by omega) (Option.some.inj hr).symm
      exact ⟨s', d, hstep, hsettled⟩

/-- Calls one after another, each at any time after the one before: when they began and what
they left, and the handle and the time in the end. -/
inductive Calls (n : Nat) (view : View) (rxBufSize : Nat) : Nat → Rx → List (Nat × Received) → Nat → Rx → Prop
  | nil (now : Nat) (rx : Rx) : Calls n view rxBufSize now rx [] now rx
  | cons {now start fuel now' : Nat} {rx rx' : Rx} {r : Received} {calls : List (Nat × Received)}
      (hstart : now ≤ start) (hcall : exanicReceiveFrame n view rx rxBufSize fuel start = some r)
      (hrest : Calls n view rxBufSize r.now r.rx calls now' rx') :
      Calls n view rxBufSize now rx ((start, r) :: calls) now' rx'

/-- From the beginning of a call to the end of the next one the card does not get 253 laps further. -/
def Paced (g : Progress n) : Nat → List (Nat × Received) → Prop
  | _, [] => True
  | since, (start, r) :: calls => g.next r.now ≤ g.next since + 253 * n ∧ Paced g start calls

/-- When the last of the calls began. -/
def lastStart : Nat → List (Nat × Received) → Nat
  | since, [] => since
  | _, (start, _) :: calls => lastStart start calls

/-- What the calls do, one after another. -/
inductive Trail (card : Card) (g : Progress n) : Nat → Nat → List (Nat × Received) → Nat → Nat → Prop
  | nil (s d : Nat) : Trail card g s d [] s d
  | cons {s d s' d' s'' d'' start : Nat} {r : Received} {calls : List (Nat × Received)}
      (hstep : Step card g start r s d s' d') (hrest : Trail card g s' d' calls s'' d'') :
      Trail card g s d ((start, r) :: calls) s'' d''

theorem Settled.trail (hn : 0 < n) {since now' : Nat} {rx' : Rx} {calls : List (Nat × Received)}
    (h : Settled card g rx s d since now) (hm : card.FramesWithin n m) (hrate : g.Rate m)
    (hfit : exanicRxChunkPayloadSize * m ≤ rxBufSize) (hcalls : Calls n (ring n card g) rxBufSize now rx calls now' rx')
    (hpaced : Paced g since calls) :
    ∃ s' d', Trail card g s d calls s' d' ∧ Settled card g rx' s' d' (lastStart since calls) now' := by
  induction hcalls generalizing s d since with
  | nil => exact ⟨s, d, .nil s d, h⟩
  | cons hstart hcall _ ih =>
    obtain ⟨s', d', hstep, hsettled⟩ := exanicReceiveFrame_spec hn h hm hrate hfit hstart hcall hpaced.1
    obtain ⟨s'', d'', htrail, hend⟩ := ih hsettled hpaced.2
    exact ⟨s'', d'', .cons hstep htrail, hend⟩

/-- After `exanic_acquire_rx_buffer`. -/
theorem acquired_settled (hn : 0 < n) (t0 : Nat) (hm : card.FramesWithin n m) (hrate : g.Rate m) (rx : Rx) :
    ∃ s, Settled card g (exanicRxCatchup n (ring n card g) rx t0).1 s (firstChunk n - 1) t0
      (exanicRxCatchup n (ring n card g) rx t0).2 := by
  have hfirst : 0 < firstChunk n := Nat.mul_pos (by decide) hn
  have hstart := g.firstChunk_le t0
  obtain ⟨k, hat, hk, hkf, hfloor, t, ht0, ht1, hkt⟩ := exanicRxCatchup_spec hn rx hm hrate
    (Card.endsAt_of_lt (show firstChunk n - 1 < firstChunk n by omega)) (show firstChunk n - 1 < g.next t0 by omega)
    (by omega)
  have hle : g.next t ≤ g.next (exanicRxCatchup n (ring n card g) rx t0).2 := g.mono (by omega)
  exact ⟨k, hat, hk, hkf, ⟨t, ht0, by omega, hkt⟩, Card.endsAt_of_lt (by omega), by omega,
    Nat.lt_of_lt_of_le (by omega) (g.firstChunk_le _), hfloor⟩

/-- The end of the last frame is written. -/
theorem Settled.lt_next {since : Nat} (h : Settled card g rx s d since now) : s < g.next now := by
  obtain ⟨t, -, ht, hs, -⟩ := h.seen
  exact Nat.lt_of_lt_of_le hs (g.mono ht)

/-- **Frames.** What the calls on an acquired buffer do, at whatever moments the card writes. -/
theorem calls_trail (hn : 0 < n) (card : Card) (g : Progress n) (hm : card.FramesWithin n m) (hrate : g.Rate m)
    (hfit : exanicRxChunkPayloadSize * m ≤ rxBufSize) (rx rx' : Rx) (t0 now' : Nat) (calls : List (Nat × Received))
    (hcalls : Calls n (ring n card g) rxBufSize (exanicRxCatchup n (ring n card g) rx t0).2
      (exanicRxCatchup n (ring n card g) rx t0).1 calls now' rx') (hpaced : Paced g t0 calls) :
    ∃ s s' d', card.EndsAt n s ∧ s < g.next (exanicRxCatchup n (ring n card g) rx t0).2 ∧
      Trail card g s (firstChunk n - 1) calls s' d' := by
  obtain ⟨s, hs⟩ := acquired_settled hn t0 hm hrate rx
  obtain ⟨s', d', htrail, -⟩ := hs.trail hn hm hrate hfit hcalls hpaced
  exact ⟨s, s', d', hs.ends, hs.lt_next, htrail⟩

/-- A card that sends frames of two bytes. -/
def twoByteFrames : Card := fun k => ⟨fun i => UInt8.ofNat (k + i + 65), 7, 0, 2, 0, by decide⟩

/-- The first of them is in the ring from tick 10 on. -/
def oneFrame : Progress 4 where
  next t := if t < 10 then 1024 else 1025
  writing _ := fun _ => 0
  mono := by
    intro a b h
    dsimp only
    split <;> split <;> omega
  started := by decide

theorem twoByteFrames_ends (p : Nat) : twoByteFrames.EndsAt 4 p := by
  unfold Card.EndsAt Card.info
  split
  · exact (by decide : (0xFF : UInt8) ≠ 0)
  · exact (by decide : (2 : UInt8) ≠ 0)

theorem twoByteFrames_within : twoByteFrames.FramesWithin 4 1 :=
  fun p => ⟨p, Nat.le_refl p, Nat.lt_succ_self p, twoByteFrames_ends p⟩

theorem oneFrame_rate : oneFrame.Rate 1 := by
  intro t
  dsimp only [oneFrame]
  split <;> split <;> omega

/-- No frame at tick 4, the frame at tick 10. -/
def twoCalls : List (Nat × Received) :=
  [(4, ⟨0, ⟨0, 0, 3, 255⟩, [], none, 5⟩), (10, ⟨2, ⟨1, 0, 0, 0⟩, [65, 66], some 7, 14⟩)]

theorem calls_trail_two : ∃ s s' d', twoByteFrames.EndsAt 4 s ∧ s < oneFrame.next 0 ∧
    Trail twoByteFrames oneFrame s (firstChunk 4 - 1) twoCalls s' d' :=
  calls_trail (by decide) twoByteFrames oneFrame twoByteFrames_within oneFrame_rate (by decide : _ ≤ 120)
    ⟨0, 0, 0, 0⟩ ⟨1, 0, 0, 0⟩ 0 14 twoCalls
    (@Calls.cons _ _ _ _ _ 1 _ _ _ _ _ (by decide) rfl (@Calls.cons _ _ _ _ _ 1 _ _ _ _ _ (by decide) rfl (.nil _ _)))
    (by simp [Paced, twoCalls, oneFrame])

/-! ## Nothing is lost in silence -/

/-- What `receiveThread` hands to its callback.
mirrors src/qx_commom/exanic_receiver.h:148-171 -/
def callbacks : List (Nat × Received) → List Bytes
  | [] => []
  | (_, r) :: calls => if r.ret ≤ 0 then callbacks calls else r.rxBuf.take r.ret.toNat :: callbacks calls

/-- The good frames among the card's `k` chunks from `p` on, the first of them begun at `f`. -/
def sent (n : Nat) (card : Card) (f p : Nat) : Nat → List Bytes
  | 0 => []
  | k + 1 =>
    if card.EndsAt n p then
      if status n card p = 0 then frame n card f p :: sent n card (p + 1) (p + 1) k else sent n card (p + 1) (p + 1) k
    else sent n card f (p + 1) k

/-- A frame that is complete among the chunks is the first of them. -/
theorem sent_frame {f e : Nat} (h : card.FrameAt n f e) (k : Nat) :
    sent n card f f (e + 1 - f + k) = if status n card e = 0 then frame n card f e :: sent n card (e + 1) (e + 1) k
      else sent n card (e + 1) (e + 1) k := by
  suffices hfrom : ∀ j q, q + j = e → f ≤ q → sent n card f q (j + 1 + k) =
      if status n card e = 0 then frame n card f e :: sent n card (e + 1) (e + 1) k
      else sent n card (e + 1) (e + 1) k by
    have hle := h.le
    have := hfrom (e - f) f (by omega) (Nat.le_refl f)
    rwa [show e - f + 1 + k = e + 1 - f + k by omega] at this
  intro j
  induction j with
  | zero =>
    rintro q rfl hq
    have hlast := h.last
    rw [Nat.add_zero] at hlast
    simp only [Nat.zero_add, Nat.add_comm 1 k, sent, Nat.add_zero, if_pos hlast]
  | succ j ih =>
    intro q hq hfq
    rw [show j + 1 + 1 + k = j + 1 + k + 1 by omega, sent, if_neg (h.inner q hfq (by omega))]
    exact ih (q + 1) (by omega) (by omega)

theorem frame_pos {f e : Nat} (h : card.FrameAt n f e) : 0 < (frame n card f e).length := by
  have hle := h.le
  have hlast : (card.chunkBytes n e).length ≠ 0 := by
    rw [Card.chunkBytes, if_pos h.last, Mem.slice_length]
    intro hzero
    exact h.last (UInt8.toNat_inj.mp hzero)
  rw [frame, show e + 1 - f = e - f + 1 by omega, Card.bytes_succ, show f + (e - f) = e by omega, List.length_append]
  omega

/-- What is handed to the callback, and what is still to come, is what the card sent. -/
theorem Trail.callbacks_sent {s' d' : Nat} {calls : List (Nat × Received)} (h : Trail card g s d calls s' d')
    (hno : ∀ c ∈ calls, c.2.ret ≠ -exanicRxFrameSwovfl) :
    s ≤ s' ∧ ∀ k, sent n card (s + 1) (s + 1) (s' - s + k) = callbacks calls ++ sent n card (s' + 1) (s' + 1) k := by
  induction h with
  | nil => exact ⟨Nat.le_refl _, by simp [callbacks]⟩
  | @cons s d t e s' d' start r calls hstep _ ih =>
    obtain ⟨hle, hsent⟩ := ih fun c hc => hno c (List.mem_cons_of_mem _ hc)
    cases hstep with
    | idle hret _ => exact ⟨hle, by simpa [callbacks, hret] using hsent⟩
    | frame _ hframe _ hok hbuf hret _ =>
      have hse := hframe.le
      have hpos := frame_pos hframe
      rw [← hbuf] at hpos
      refine ⟨by omega, fun k => ?_⟩
      have hone := sent_frame hframe (s' - t + k)
      rw [if_pos hok, hsent k] at hone
      rw [callbacks, if_neg (by omega), hret, Int.toNat_natCast, List.take_length, hbuf, List.cons_append, ← hone]
      congr 1
      omega
    | bad _ hframe _ hbad hret =>
      have hse := hframe.le
      refine ⟨by omega, fun k => ?_⟩
      have hone := sent_frame hframe (s' - t + k)
      rw [if_neg hbad, hsent k] at hone
      rw [callbacks, if_pos (by omega), ← hone]
      congr 1
      omega
    | lapped _ hret _ _ => exact absurd hret (hno _ List.mem_cons_self)

theorem Trail.append {s' d' : Nat} {calls calls' : List (Nat × Received)}
    (h : Trail card g s d (calls ++ calls') s' d') : ∃ t e, Trail card g s d calls t e ∧ Trail card g t e calls' s' d' := by
  induction calls generalizing s d with
  | nil => exact ⟨s, d, .nil s d, h⟩
  | cons c calls ih =>
    cases h with
    | cons hstep hrest =>
      obtain ⟨t, e, h1, h2⟩ := ih hrest
      exact ⟨t, e, .cons hstep h1, h2⟩

/-- A call that finds no frame has seen all there is. -/
theorem Trail.idle {s' d' : Nat} (h : Trail card g s d [(start, r)] s' d') (hret : r.ret = 0) :
    s' = s ∧ s + 1 = g.next start := by
  cases h with
  | cons hstep hrest =>
    cases hrest
    cases hstep with
    | idle _ hnext => exact ⟨rfl, hnext.symm⟩
    | frame e hframe _ _ hbuf hret' _ =>
      have := frame_pos hframe
      rw [← hbuf] at this
      omega
    | bad e _ _ hbad hret' =>
      refine absurd ?_ hbad
      rw [← UInt8.toNat_inj]
      simp only [UInt8.toNat_zero]
      omega
    | lapped s' hret' _ _ =>
      rw [hret] at hret'
      exact absurd hret' (by decide)

/-- **No silent loss.** As long as no call reports an overflow, a call that finds no frame comes when
the callback has been handed every good frame the card has completed since the buffer was acquired. -/
theorem nothing_lost (hn : 0 < n) (card : Card) (g : Progress n) (hm : card.FramesWithin n m) (hrate : g.Rate m)
    (hfit : exanicRxChunkPayloadSize * m ≤ rxBufSize) (rx rx' : Rx) (t0 now' start : Nat) (r : Received)
    (calls : List (Nat × Received))
    (hcalls : Calls n (ring n card g) rxBufSize (exanicRxCatchup n (ring n card g) rx t0).2
      (exanicRxCatchup n (ring n card g) rx t0).1 (calls ++ [(start, r)]) now' rx')
    (hpaced : Paced g t0 (calls ++ [(start, r)])) (hno : ∀ c ∈ calls, c.2.ret ≠ -exanicRxFrameSwovfl)
    (hret : r.ret = 0) :
    ∃ s, card.EndsAt n s ∧ s < g.next (exanicRxCatchup n (ring n card g) rx t0).2 ∧
      callbacks calls = sent n card (s + 1) (s + 1) (g.next start - (s + 1)) := by
  obtain ⟨s, hs⟩ := acquired_settled hn t0 hm hrate rx
  obtain ⟨s', d', htrail, -⟩ := hs.trail hn hm hrate hfit hcalls hpaced
  obtain ⟨t, e, hbefore, hlast⟩ := htrail.append
  obtain ⟨hle, hsent⟩ := hbefore.callbacks_sent hno
  obtain ⟨rfl, hnext⟩ := hlast.idle hret
  have hall := hsent 0
  rw [sent, List.append_nil] at hall
  refine ⟨s, hs.ends, hs.lt_next, ?_⟩
  rw [← hall, ← hnext]
  congr 1
  omega

theorem nothing_lost_two : ∃ s, twoByteFrames.EndsAt 4 s ∧ s < oneFrame.next 0 ∧
    [[65, 66]] = sent 4 twoByteFrames (s + 1) (s + 1) (oneFrame.next 20 - (s + 1)) :=
  nothing_lost (by decide) twoByteFrames oneFrame twoByteFrames_within oneFrame_rate (by decide : _ ≤ 120)
    ⟨0, 0, 0, 0⟩ ⟨1, 0, 0, 0⟩ 0 21 20 ⟨0, ⟨1, 0, 0, 0⟩, [], none, 21⟩ twoCalls
    (@Calls.cons _ _ _ _ _ 1 _ _ _ _ _ (by decide) rfl (@Calls.cons _ _ _ _ _ 1 _ _ _ _ _ (by decide) rfl
      (@Calls.cons _ _ _ _ _ 1 _ _ _ _ _ (by decide) rfl (.nil _ _))))
    (by simp [Paced, twoCalls, oneFrame]) (by decide) rfl

/-! ## Calls return -/

theorem spin_returns {view : View} (fuel : Nat) {t : Nat} (hle : now ≤ t)
    (hne : (view t rx.nextChunk).info.generation ≠ rx.generation - 1) (hfuel : t < now + fuel) :
    ∃ u' now', spin view rx fuel now = some (u', now') ∧ now' ≤ t + 1 := by
  induction fuel generalizing now with
  | zero => omega
  | succ fuel ih =>
    rw [spin]
    split
    · rename_i heq
      have hlt : now ≠ t := by
        rintro rfl
        exact hne heq
      exact ih (by omega) (by omega)
    · exact ⟨_, _, rfl, by omega⟩

/-- A frame whose chunks are all written at `T` is read to its end. -/
theorem frameLoop_returns (hn : 0 < n) {T fuel k : Nat} (h : InFrame card g s p start u rx size buf now)
    (hm : card.FramesWithin n m) (hfit : exanicRxChunkPayloadSize * m ≤ rxBufSize) (hfirst : firstChunk n ≤ s + 1)
    (hk : p - s + k = m) (hp : p < g.next T) (hT : card.EndsAt n (g.next T - 1))
    (hnow : now ≤ T + (exanicRxChunkPayloadSize + 1) * (p - s))
    (hlag : ∀ t, t ≤ T + (exanicRxChunkPayloadSize + 1) * m → g.next t ≤ s + 254 * n)
    (hfuel : T + (exanicRxChunkPayloadSize + 1) * m + k < fuel) :
    ∃ r, frameLoop n (ring n card g) rxBufSize fuel u rx size buf now = some r := by
  induction k generalizing p u rx size buf now fuel with
  | zero =>
    obtain ⟨fuel, rfl⟩ := Nat.exists_eq_add_of_lt hfuel
    have hend : card.EndsAt n p := by
      obtain ⟨e, he0, he1, he⟩ := hm (s + 1)
      have hafter := h.after
      rcases Nat.lt_or_ge e p with hlt | hge
      · exact absurd he (h.inner e (by omega) hlt)
      · rwa [show p = e by omega]
    rw [Card.EndsAt, ← h.info] at hend
    rw [frameLoop]
    dsimp only
    rw [if_pos hend]
    exact ⟨_, rfl⟩
  | succ k ih =>
    obtain ⟨fuel, rfl⟩ : ∃ f, fuel = f + 1 := ⟨fuel - 1, by omega⟩
    rw [frameLoop]
    dsimp only
    split
    · exact ⟨_, rfl⟩
    · rename_i hlen
      have hinner : ¬ card.EndsAt n p := fun he => hlen (by rwa [Card.EndsAt, ← h.info] at he)
      have hafter := h.after
      have hnext := h.stands.advance hn
      have hlap : n ≤ firstChunk n := Nat.le_mul_of_pos_left n (by decide)
      have hmore : p + 1 < g.next T := by
        rcases Nat.lt_or_ge (p + 1) (g.next T) with hlt | hge
        · exact hlt
        · exact absurd hT (by rwa [show g.next T - 1 = p by omega])
      have hticks : (exanicRxChunkPayloadSize + 1) * (p - s) + (exanicRxChunkPayloadSize + 1) ≤
          (exanicRxChunkPayloadSize + 1) * m := by
        rw [← Nat.mul_succ]
        exact Nat.mul_le_mul_left _ (by omega)
      have hbehind {t : Nat} (hTt : T ≤ t) (ht : t ≤ T + (exanicRxChunkPayloadSize + 1) * m) :
          Behind n (g.next t) (p + 1) := by
        have h1 : g.next T ≤ g.next t := g.mono hTt
        have h2 := hlag t ht
        exact ⟨hn, by omega, by omega, by omega⟩
      simp only [h.fits hm hfit, if_true, h.stands.nextChunk]
      -- by then the next chunk is there
      generalize ht : max (now + exanicRxChunkPayloadSize) T = t
      have hne : (ring n card g t (rx.advance n).nextChunk).info.generation ≠ (rx.advance n).generation - 1 := by
        rw [hnext.nextChunk, hnext.generation, ring_info, Card.info_generation]
        intro heq
        have h1 : g.next T ≤ g.next t := g.mono (by omega)
        have := (hbehind (by omega) (by omega)).not_yet heq
        omega
      obtain ⟨u', now', hspin, hnow'⟩ := spin_returns fuel (show now + exanicRxChunkPayloadSize ≤ t by omega) hne
        (by omega)
      rw [hspin, Option.bind_some]
      dsimp only
      split
      · exact ⟨_, rfl⟩
      · rename_i hhere
        obtain ⟨t', ht', rfl, hu', -⟩ := spin_spec hspin
        rw [hnext.nextChunk, ring_info] at hu'
        rw [not_not, hnext.generation, hu', Card.info_generation] at hhere
        have hb : Behind n (g.next t') (p + 1) := by
          have h1 : g.next now ≤ g.next t' := g.mono (by omega)
          have h2 := hlag t' (by omega)
          have h3 := h.written
          exact ⟨hn, by omega, by omega, by omega⟩
        obtain ⟨hnewest, hwritten⟩ := hb.here hhere
        rw [hnewest] at hu'
        subst hu'
        refine ih (h.next hn hinner ht' hnewest hwritten) (by omega) hmore ?_ (by omega)
        rw [show p + 1 - s = p - s + 1 by omega, Nat.mul_succ]
        omega

/-- **Calls return.** When the card is between two frames at some moment of a call, and does not
lap the reader while that reads on, the call comes to an end. -/
theorem call_returns (hn : 0 < n) (card : Card) (g : Progress n) (hm : card.FramesWithin n m) (hrate : g.Rate m)
    (hfit : exanicRxChunkPayloadSize * m ≤ rxBufSize) (rx rx' : Rx) (t0 now' T : Nat) (calls : List (Nat × Received))
    (hcalls : Calls n (ring n card g) rxBufSize (exanicRxCatchup n (ring n card g) rx t0).2
      (exanicRxCatchup n (ring n card g) rx t0).1 calls now' rx') (hpaced : Paced g t0 calls) (hstart : now' ≤ start)
    (hT0 : start ≤ T) (hT : card.EndsAt n (g.next T - 1))
    (hlag : g.next (T + (exanicRxChunkPayloadSize + 1) * m) ≤ g.next (lastStart t0 calls) + 253 * n) :
    ∃ fuel r, exanicReceiveFrame n (ring n card g) rx' rxBufSize fuel start = some r := by
  obtain ⟨s₀, hs₀⟩ := acquired_settled hn t0 hm hrate rx
  obtain ⟨s, d, -, hs⟩ := hs₀.trail hn hm hrate hfit hcalls hpaced
  obtain ⟨t, ht0, ht1, hst, hst'⟩ := hs.seen
  have hsince : g.next (lastStart t0 calls) ≤ g.next t := g.mono ht0
  have hbound : ∀ t', t' ≤ T + (exanicRxChunkPayloadSize + 1) * m → g.next t' ≤ s + 254 * n := by
    intro t' ht'
    have := g.mono ht'
    omega
  have htstart : g.next t ≤ g.next start := g.mono (by omega)
  have hlap : n ≤ firstChunk n := Nat.le_mul_of_pos_left n (by decide)
  have hfirst := hs.first
  have hlt := hbound start (by omega)
  have hbehind : Behind n (g.next start) (s + 1) := ⟨hn, by omega, by omega, by omega⟩
  refine ⟨T + (exanicRxChunkPayloadSize + 1) * m + m, ?_⟩
  rw [exanicReceiveFrame]
  simp only [hs.stands.nextChunk, hs.stands.generation, ring_info, Card.info_generation]
  split
  · rename_i hhere
    obtain ⟨hnewest, hwritten⟩ := hbehind.here hhere
    have hseen := le_newest_add (w := g.next start) (Nat.mod_lt (s + 1) hn)
    rw [hnewest] at hseen ⊢
    have hin : InFrame card g s (s + 1) start (card.info n (s + 1)) rx' 0 [] (start + 1) :=
      ⟨hs.stands, rfl, Nat.lt_succ_self s, fun q hq hqs => by omega,
        ⟨start, Nat.le_refl _, Nat.lt_succ_self _, hwritten, hseen⟩, by simp, rfl, fun _ => by simp [Card.bytes]⟩
    have hTnext : g.next start ≤ g.next T := g.mono hT0
    have hone : s + 1 - s = 1 := by omega
    have hmpos := hin.lt hm
    exact frameLoop_returns (k := m - 1) hn hin hm hfit hfirst (by omega) (by omega) hT
      (by rw [hone, Nat.mul_one]; omega) hbound (by omega)
  · split <;> exact ⟨_, rfl⟩

theorem call_returns_ten :
    ∃ fuel r, exanicReceiveFrame 4 (ring 4 twoByteFrames oneFrame) ⟨0, 0, 3, 255⟩ 120 fuel 10 = some r :=
  call_returns (by decide) twoByteFrames oneFrame twoByteFrames_within oneFrame_rate (by decide)
    ⟨0, 0, 0, 0⟩ ⟨0, 0, 3, 255⟩ 0 4 10 [] (.nil _ _) trivial (by decide) (Nat.le_refl 10) (twoByteFrames_ends 1024)
    (by decide)

end MdInfoSet.L5.ExanicReader
