import MdInfoSet.Core.Mem
import MdInfoSet.Core.GenerationRing

/-!
# The RX ring of the ExaNIC library

The card writes received frames, chunk after chunk, into a ring in host memory and never
asks whether they have been read; the library follows it there. A chunk is 120 bytes of
payload and an info word; `length` is 0 for all chunks of a frame but its last
(`cffex_md_exanic/exanic-software-master/libs/exanic/fifo_if.h`).

Reader and card run at the same time. Every access of the reader to the ring takes one tick
of a clock, and `View` says what the ring holds at each tick, so that a `memcpy` of the
payload reads each of its bytes at another moment. What the card may have done by then is
`Progress`: how far it is at every tick, and which bytes are in the payload it is working
on. It writes a chunk's info word after the payload, as one word; the source relies on both.

The driver fills the whole region with `0xFF`, "because generation number starts at 0"
(`modules/exanic/exanic-main.c:265`). The chunks this makes are counted as those of a lap
before the first, so that the first chunk the card writes has the position `256 * n`.

`n` is `EXANIC_RX_NUM_CHUNKS`, which depends on the page size.
-/
namespace MdInfoSet.L2.ExanicRx

open MdInfoSet.GenerationRing

/-- mirrors src/cffex_md_exanic/exanic-software-master/libs/exanic/pcie_if.h:60 -/
def exanicRxChunkPayloadSize : Nat := 120

/-- mirrors src/cffex_md_exanic/exanic-software-master/libs/exanic/fifo_rx.h:28 -/
def exanicRxFrameSwovfl : Int := 256

/-- mirrors src/cffex_md_exanic/exanic-software-master/libs/exanic/fifo_rx.h:31 -/
def exanicRxFrameTruncated : Int := 257

/-- mirrors src/cffex_md_exanic/exanic-software-master/libs/exanic/fifo_if.h:98 -/
def exanicRxFrameErrorMask : UInt8 := 0x0F

/-- mirrors src/cffex_md_exanic/exanic-software-master/libs/exanic/fifo_if.h:19-51 -/
structure RxChunkInfo where
  timestamp : UInt32
  frameStatus : UInt8
  length : UInt8
  matchedFilter : UInt8
  generation : UInt8
  deriving DecidableEq, Repr

/-- mirrors src/cffex_md_exanic/exanic-software-master/libs/exanic/fifo_if.h:58-73 -/
structure RxChunk where
  payload : Mem
  info : RxChunkInfo

abbrev RxBuffer := Nat → RxChunk

/-- The ring as the reader's access at each tick finds it. -/
abbrev View := Nat → RxBuffer

/-- mirrors src/cffex_md_exanic/exanic-software-master/libs/exanic/fifo_rx.h:37-47
`next_chunk` stays below the number of chunks, and `sentinel_chunk_generation` holds a `uint8_t`. -/
structure Rx where
  nextChunk : Nat
  generation : UInt8
  sentinelChunk : Nat
  sentinelChunkGeneration : UInt8
  deriving DecidableEq, Repr

/-- `if (rx->next_chunk == EXANIC_RX_NUM_CHUNKS)`: the next lap. -/
def Rx.wrap (n : Nat) (rx : Rx) : Rx :=
  if rx.nextChunk = n then { rx with nextChunk := 0, generation := rx.generation + 1 } else rx

def Rx.advance (n : Nat) (rx : Rx) : Rx := { rx with nextChunk := rx.nextChunk + 1 }.wrap n

/-! ## Catching up -/

/-- The locals of `__exanic_rx_catchup`. -/
structure Scan where
  eofGen : UInt8
  breakGen : UInt8
  eofChunk : Nat
  breakChunk : Nat
  eofFound : Bool
  beforeBreak : Bool
  deriving DecidableEq, Repr

def Scan.start : Scan := ⟨0, 0, 0, 0, false, false⟩

/-- mirrors src/cffex_md_exanic/exanic-software-master/libs/exanic/fifo_rx.c:272-284 -/
def Scan.generation (n : Nat) (s : Scan) (chunk : Nat) (u : RxChunkInfo) : Scan :=
  if chunk = n - 1 then { s with breakGen := u.generation, breakChunk := n - 1 }
  else if u.generation ≠ s.breakGen then
    { s with beforeBreak := true, breakGen := u.generation, breakChunk := chunk }
  else s

def Scan.eof (s : Scan) (chunk : Nat) (u : RxChunkInfo) : Scan :=
  { s with eofFound := true, eofGen := u.generation, eofChunk := chunk }

/-- The loop over the chunks below `chunk`, backwards, and the tick after its last access.
mirrors src/cffex_md_exanic/exanic-software-master/libs/exanic/fifo_rx.c:268-311 -/
def scan (n : Nat) (view : View) : Nat → Nat → Scan → Scan × Nat
  | 0, now, s => (s, now)
  | chunk + 1, now, s =>
    let u := (view now chunk).info
    let s := s.generation n chunk u
    if u.length ≠ 0 then
      if s.beforeBreak then (s.eof chunk u, now + 1)
      else if !s.eofFound then scan n view chunk (now + 1) (s.eof chunk u)
      else scan n view chunk (now + 1) s
    else scan n view chunk (now + 1) s

/-- What follows the loop.
mirrors src/cffex_md_exanic/exanic-software-master/libs/exanic/fifo_rx.c:312-333 -/
def Rx.settle (n : Nat) (rx : Rx) (walk : Scan × Nat) : Rx × Nat :=
  let s := walk.1
  let rx :=
    if s.eofFound then
      { rx with sentinelChunk := s.eofChunk, sentinelChunkGeneration := s.eofGen,
                nextChunk := s.eofChunk + 1, generation := s.eofGen }
    else
      { rx with sentinelChunk := s.breakChunk, sentinelChunkGeneration := s.breakGen,
                nextChunk := s.breakChunk + 1, generation := s.breakGen }
  (rx.wrap n, walk.2)

/-- mirrors src/cffex_md_exanic/exanic-software-master/libs/exanic/fifo_rx.c:252-334 -/
def exanicRxCatchup (n : Nat) (view : View) (rx : Rx) (now : Nat) : Rx × Nat :=
  rx.settle n (scan n view n now .start)

/-! ## Receiving a frame -/

/-- What a call leaves: its result, the handle, the bytes copied to `rx_buf`, one copy behind
the other, `*timestamp` where it is set, and the tick after its last access. -/
structure Received where
  ret : Int
  rx : Rx
  rxBuf : Bytes
  timestamp : Option UInt32
  now : Nat

/-- `memcpy` of `len` bytes of a chunk's payload, a tick for each byte. -/
def copyPayload (view : View) (now chunk len : Nat) : Bytes :=
  (List.range len).map fun i => (view (now + i) chunk).payload i

/-- `__exanic_rx_catchup(rx); return -EXANIC_RX_FRAME_SWOVFL;` -/
def lapped (n : Nat) (view : View) (rx : Rx) (rxBuf : Bytes) (now : Nat) : Received :=
  let caught := exanicRxCatchup n view rx now
  ⟨-exanicRxFrameSwovfl, caught.1, rxBuf, none, caught.2⟩

/-- The info word of the next chunk as soon as its generation is no longer the previous one,
and the tick after. Each turn of the loop takes fuel.
mirrors src/cffex_md_exanic/exanic-software-master/libs/exanic/fifo_rx.c:404-407 -/
def spin (view : View) (rx : Rx) : Nat → Nat → Option (RxChunkInfo × Nat)
  | 0, _ => none
  | fuel + 1, now =>
    let u := (view now rx.nextChunk).info
    if u.generation = rx.generation - 1 then spin view rx fuel (now + 1) else some (u, now + 1)

/-- mirrors src/cffex_md_exanic/exanic-software-master/libs/exanic/fifo_rx.c:365-393 -/
def lastChunk (n : Nat) (view : View) (rxBufSize : Nat) (u : RxChunkInfo) (currentChunk : Nat) (rx : Rx) (size : Nat)
    (rxBuf : Bytes) (now : Nat) : Received :=
  if size + u.length.toNat > rxBufSize then ⟨-exanicRxFrameTruncated, rx, rxBuf, none, now⟩
  else
    let rxBuf := rxBuf ++ copyPayload view now currentChunk u.length.toNat
    let now := now + u.length.toNat
    let rx' := { rx with sentinelChunk := currentChunk, sentinelChunkGeneration := u.generation }
    if (view now rx.sentinelChunk).info.generation ≠ rx.sentinelChunkGeneration then
      lapped n view rx' rxBuf (now + 1)
    else if u.frameStatus &&& exanicRxFrameErrorMask ≠ 0 then
      ⟨-(u.frameStatus &&& exanicRxFrameErrorMask).toNat, rx', rxBuf, some u.timestamp, now + 1⟩
    else ⟨(size + u.length.toNat : Nat), rx', rxBuf, some u.timestamp, now + 1⟩

/-- The `while (1)` of `exanic_receive_frame`, with the info word of its current chunk.
mirrors src/cffex_md_exanic/exanic-software-master/libs/exanic/fifo_rx.c:350-416 -/
def frameLoop (n : Nat) (view : View) (rxBufSize : Nat) : Nat → RxChunkInfo → Rx → Nat → Bytes → Nat → Option Received
  | 0, _, _, _, _, _ => none
  | fuel + 1, u, rx, size, rxBuf, now =>
    let currentChunk := rx.nextChunk
    let rx := rx.advance n
    if u.length ≠ 0 then some (lastChunk n view rxBufSize u currentChunk rx size rxBuf now)
    else
      let copied := size + exanicRxChunkPayloadSize ≤ rxBufSize
      let rxBuf := if copied then rxBuf ++ copyPayload view now currentChunk exanicRxChunkPayloadSize else rxBuf
      let now := if copied then now + exanicRxChunkPayloadSize else now
      (spin view rx fuel now).bind fun (u, now) =>
        if u.generation ≠ rx.generation then some (lapped n view rx rxBuf now)
        else frameLoop n view rxBufSize fuel u rx (size + exanicRxChunkPayloadSize) rxBuf now

/-- mirrors src/cffex_md_exanic/exanic-software-master/libs/exanic/fifo_rx.c:336-431 -/
def exanicReceiveFrame (n : Nat) (view : View) (rx : Rx) (rxBufSize fuel now : Nat) : Option Received :=
  let u := (view now rx.nextChunk).info
  if u.generation = rx.generation then frameLoop n view rxBufSize fuel u rx 0 [] (now + 1)
  else if u.generation = rx.generation - 1 then some ⟨0, rx, [], none, now + 1⟩
  else some (lapped n view rx [] (now + 1))

/-! ## The card -/

/-- A chunk as the card makes it. -/
structure CardChunk where
  payload : Mem
  timestamp : UInt32
  frameStatus : UInt8
  length : UInt8
  matchedFilter : UInt8
  length_le : length.toNat ≤ exanicRxChunkPayloadSize

/-- The chunks the card writes, one after another. -/
abbrev Card := Nat → CardChunk

/-- The position of the first chunk. -/
def firstChunk (n : Nat) : Nat := 256 * n

/-- The info word at a position; before the first chunk, what the driver fills the region with. -/
def Card.info (n : Nat) (card : Card) (p : Nat) : RxChunkInfo :=
  if p < firstChunk n then ⟨0xFFFFFFFF, 0xFF, 0xFF, 0xFF, generation n p⟩
  else
    let c := card (p - firstChunk n)
    ⟨c.timestamp, c.frameStatus, c.length, c.matchedFilter, generation n p⟩

def Card.payload (n : Nat) (card : Card) (p : Nat) : Mem :=
  if p < firstChunk n then fun _ => 0xFF else (card (p - firstChunk n)).payload

/-- How far the card is at each tick: `next` is the position it writes next, and `writing` what
the payload of that slot shows meanwhile. -/
structure Progress (n : Nat) where
  next : Nat → Nat
  writing : Nat → Mem
  mono : Monotone next
  started : firstChunk n ≤ next 0

/-- What a reader finds in the ring. -/
def ring (n : Nat) (card : Card) (g : Progress n) : View := fun t i =>
  let p := newest n (g.next t) i
  ⟨if i = g.next t % n then g.writing t else card.payload n p, card.info n p⟩

/-- A frame, or the filling of the region, ends with the chunk at `p`. -/
def Card.EndsAt (n : Nat) (card : Card) (p : Nat) : Prop := (card.info n p).length ≠ 0

instance (n : Nat) (card : Card) (p : Nat) : Decidable (card.EndsAt n p) := by unfold Card.EndsAt; infer_instance

/-- The chunks `f`, …, `e` are a frame. -/
structure Card.FrameAt (n : Nat) (card : Card) (f e : Nat) : Prop where
  first : firstChunk n ≤ f
  le : f ≤ e
  last : card.EndsAt n e
  inner : ∀ q, f ≤ q → q < e → ¬ card.EndsAt n q

/-- What the frame that ends with the chunk `e` has in the chunk `p`. -/
def Card.chunkBytes (n : Nat) (card : Card) (p : Nat) : Bytes :=
  (card.payload n p).slice 0 (if card.EndsAt n p then (card.info n p).length.toNat else exanicRxChunkPayloadSize)

/-- The bytes of the chunks `f`, …, `f + k - 1`. -/
def Card.bytes (n : Nat) (card : Card) (f k : Nat) : Bytes := (List.range' f k).flatMap (card.chunkBytes n)

/-- No frame has more than `m` chunks. -/
def Card.FramesWithin (n : Nat) (card : Card) (m : Nat) : Prop := ∀ p, ∃ e, p ≤ e ∧ e < p + m ∧ card.EndsAt n e

variable {n : Nat} {card : Card} {g : Progress n} {p s : Nat}

@[simp] theorem Card.info_generation : (card.info n p).generation = generation n p := by
  unfold Card.info
  split <;> rfl

theorem ring_info (t i : Nat) : (ring n card g t i).info = card.info n (newest n (g.next t) i) := rfl

theorem Progress.firstChunk_le (g : Progress n) (t : Nat) : firstChunk n ≤ g.next t :=
  Nat.le_trans g.started (g.mono (Nat.zero_le t))

theorem Card.endsAt_of_lt (h : p < firstChunk n) : card.EndsAt n p := by
  simp [Card.EndsAt, Card.info, h]

theorem Card.length_le (card : Card) (h : firstChunk n ≤ p) : (card.info n p).length.toNat ≤ exanicRxChunkPayloadSize := by
  simp only [Card.info, Nat.not_lt.mpr h, if_false]
  exact (card (p - firstChunk n)).length_le

/-- The handle stands at position `p`, with the sentinel at `s`. -/
structure Rx.At (n : Nat) (rx : Rx) (s p : Nat) : Prop where
  nextChunk : rx.nextChunk = p % n
  generation : rx.generation = GenerationRing.generation n p
  sentinelChunk : rx.sentinelChunk = s % n
  sentinelChunkGeneration : rx.sentinelChunkGeneration = GenerationRing.generation n s

/-- The step to the next chunk, over the end of the ring where that is there. -/
theorem Rx.at_wrap (hn : 0 < n) {rx : Rx} (hchunk : rx.nextChunk = p % n + 1)
    (hgen : rx.generation = GenerationRing.generation n p) (hs : rx.sentinelChunk = s % n)
    (hsg : rx.sentinelChunkGeneration = GenerationRing.generation n s) : (rx.wrap n).At n s (p + 1) := by
  obtain ⟨h1, h2⟩ := generation_succ (p := p) hn
  unfold Rx.wrap
  split
  · rename_i hend
    rw [hchunk] at hend
    exact ⟨by rw [h1, if_pos hend], by rw [h2, if_pos hend, ← hgen], hs, hsg⟩
  · rename_i hend
    rw [hchunk] at hend
    exact ⟨by rw [h1, if_neg hend, hchunk], by rw [h2, if_neg hend, ← hgen], hs, hsg⟩

theorem Rx.At.advance (hn : 0 < n) {rx : Rx} (h : rx.At n s p) : (rx.advance n).At n s (p + 1) :=
  Rx.at_wrap hn (by rw [h.nextChunk]) h.generation h.sentinelChunk h.sentinelChunkGeneration

@[simp] theorem Rx.settle_snd (rx : Rx) (walk : Scan × Nat) : (rx.settle n walk).2 = walk.2 := rfl

theorem Rx.at_settle (hn : 0 < n) {rx : Rx} {walk : Scan × Nat} (hfound : walk.1.eofFound = true)
    (hchunk : walk.1.eofChunk = p % n)
    (hgen : walk.1.eofGen = GenerationRing.generation n p) : (rx.settle n walk).1.At n p (p + 1) := by
  simp only [Rx.settle, hfound, if_true]
  exact Rx.at_wrap hn (by rw [hchunk]) hgen hchunk hgen

theorem exanicRxCatchup_eq (view : View) (rx : Rx) (now : Nat) :
    exanicRxCatchup n view rx now = rx.settle n (scan n view n now .start) := rfl

/-- A copy that ends before the card comes round to the chunk is the chunk's payload. -/
theorem copyPayload_eq (hn : 0 < n) {now len : Nat} (hp : p < g.next now) (hlt : g.next (now + len) < p + n) :
    copyPayload (ring n card g) now (p % n) len = (card.payload n p).slice 0 len := by
  refine List.map_congr_left fun i hi => ?_
  have hi := List.mem_range.mp hi
  have h1 : p < g.next (now + i) := Nat.lt_of_lt_of_le hp (g.mono (by omega))
  have h2 : g.next (now + i) < p + n := Nat.lt_of_le_of_lt (g.mono (by omega)) hlt
  simp only [ring, newest_eq hn h1 (Nat.le_of_lt h2), if_neg (mod_ne h1 h2), Nat.zero_add]

theorem Card.bytes_succ (f k : Nat) : card.bytes n f (k + 1) = card.bytes n f k ++ card.chunkBytes n (f + k) := by
  simp [Card.bytes, List.range'_concat]

end MdInfoSet.L2.ExanicRx
