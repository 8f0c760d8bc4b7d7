import MdInfoSet.L3Protocol.Lv2Reassembly
import MdInfoSet.L4App.GfexDispatch
import MdInfoSet.L4App.GfexIsolation
import MdInfoSet.L4App.Suppression
import MdInfoSet.L5Concurrency.RingSpsc

/-!
# The Level-2 path of the GFEX receiver, from TCP segments to `on_msg`

Two threads and a ring buffer between them (src/dz_gfex_md/src/dz_gfex_md.cpp:139-310). The
receive thread passes each segment to `Lv2Handler`, which hands the messages that are complete
to `OnData_lv2` one after another; that pushes at most one record, and waits for room. The
dispatcher pops records and publishes what `DispatchMessage` makes of them. A step is one
segment, one message, or one atomic step of `push_l2` or `try_pop`; any of them may come next.

Nothing comes from the Level-1 receiver here: its handlers would share the filter's table, and
two producers share the ring (`RingMpsc`). So the static values `find` looks up do not change.

**End to end** (`published_messages`). Whatever the cuts of the stream that fit
(`Lv2Reassembly.Fits`) and whatever the order of the steps, the messages handed to `OnData_lv2`
are the first ones of the stream, each once and in order, and what is published is the
beginning of what the receiver makes of them, message by message. When the stream has come in
whole and the threads have nothing left to do, it is all of it.
-/
namespace MdInfoSet.L5.GfexPipeline

open MdInfoSet.Framing MdInfoSet.L1.Lv2Frame MdInfoSet.L2.Lv2Handler MdInfoSet.L2.RingBuffer
open MdInfoSet.L3.Lv2Reassembly MdInfoSet.L4.GfexReceiver MdInfoSet.L4.GfexIsolation MdInfoSet.L4.Publish
open MdInfoSet.L4.GfexDispatch (dispatchMessage)
open MdInfoSet.L5.RingSpsc

/-- Both threads: `inbox` are the messages `Lv2Handler` has still to hand on. -/
structure Pipeline where
  half : HalfPacket
  inbox : List Bytes
  mgr : GfexQuota
  sys : Sys Unit
  published : List MarketData

inductive Label where
  | segment (inputdata : Seg) (net : NetConfig)
  /-- `OnData_lv2` on the next message, with its two readings of the clock. -/
  | message (t0 t1 : UInt64)
  | push (spurious : Bool)
  | pop

variable (config : NetConfig) (find : Bytes → Option L4.GfexDispatch.StaticInfo) (reset : MarketData)

/-- `OnData_lv2` returns when its record is in the ring, and only then the next message or
segment is taken. -/
def step (p : Pipeline) : Label → Option Pipeline
  | .segment inputdata net =>
    if p.inbox = [] ∧ p.sys.prod () = .idle then
      let handed := lv2Handler config p.half inputdata net
      some { p with half := handed.2, inbox := handed.1 }
    else none
  | .message t0 t1 =>
    match p.inbox with
    | [] => none
    | m :: inbox =>
      if p.sys.prod () = .idle then
        (onDataLv2 p.mgr (Mem.ofBytes m) m.length t0 t1).bind fun mgr =>
          match mgr.pushed.drop p.mgr.pushed.length with
          | [] => some { p with inbox := inbox, mgr := mgr }
          | x :: _ => (enter p.sys () x).map fun sys => { p with inbox := inbox, mgr := mgr, sys := sys }
      else none
  | .push spurious => (pushStep p.sys () spurious).map fun sys => { p with sys := sys }
  | .pop =>
    let sys := popStep p.sys
    let popped := sys.popped.drop p.sys.popped.length
    some { p with sys := sys, published := p.published ++ popped.filterMap (dispatchMessage find reset) }

/-- Both threads before the first segment. -/
structure Init (p : Pipeline) : Prop where
  half : p.half = .start
  inbox : p.inbox = []
  mgr : p.mgr.pushed = []
  sys : L2.RingBuffer.Init p.sys
  published : p.published = []

def machine : Machine Pipeline Label where
  init := Init
  step := step config find reset

/-- The segments that are not for another connection. -/
def accepted : List Label → List Seg
  | [] => []
  | .segment inputdata net :: ls => if config.Accepts net then inputdata :: accepted ls else accepted ls
  | _ :: ls => accepted ls

/-! ## The ring -/

/-- The record `push_l2` has not yet put into the ring. -/
def inFlight : PushPc → List Slot
  | .idle => []
  | .loadWrite x | .loadRead x _ | .fill x _ _ | .cas x _ => [x]

/-- The ring between the records asked for and those popped. -/
structure Carries (sys : Sys Unit) (asked : List Slot) : Prop where
  holds : ∃ q, Holds sys q ∧ sys.pushed = sys.popped ++ q
  asked : asked = sys.pushed ++ inFlight (sys.prod ())

variable {sys sys' : Sys Unit} {asked : List Slot}

/-- A step of the queue adds to the logs what it adds to the queue. -/
theorem holds_logs {q : List Slot} {l : L2.RingBuffer.Label Unit} (hlog : sys.pushed = sys.popped ++ q)
    (hstep : L2.RingBuffer.step sys l = some sys')
    (hfollows : (Fifo.machine 4096).Follows q (Holds sys') (obs sys l)) :
    ∃ q', Holds sys' q' ∧ sys'.pushed = sys'.popped ++ q' := by
  obtain ⟨hpushed, hpopped⟩ := step_logs hstep
  cases hobs : obs sys l with
  | none =>
    rw [hobs] at hfollows hpushed hpopped
    refine ⟨q, hfollows, ?_⟩
    simpa [Fifo.enqs, Fifo.deqs, hpushed, hpopped] using hlog
  | some op =>
    rw [hobs] at hfollows hpushed hpopped
    obtain ⟨q', hq', hholds⟩ := hfollows
    have hrun : (Fifo.machine 4096).run q [op] = some q' := by simp [Machine.run, hq']
    have hcons := Fifo.run_conserves hrun
    refine ⟨q', hholds, ?_⟩
    rw [hpushed, hpopped, hlog, Option.toList_some, List.append_assoc, hcons, List.append_assoc]

theorem Carries.enter {x : Slot} (h : Carries sys asked) (hs : enter sys () x = some sys') :
    Carries sys' (asked ++ [x]) := by
  obtain ⟨q, hq, hlog⟩ := h.holds
  have hq' := hq.enter hs
  simp only [L2.RingBuffer.enter, Option.ite_none_right_eq_some, Option.some.injEq] at hs
  obtain ⟨hidle, rfl⟩ := hs
  refine ⟨⟨q, hq', hlog⟩, ?_⟩
  rw [h.asked, hidle]
  simp [Sys.setProd, inFlight]

theorem Carries.push {spurious : Bool} (h : Carries sys asked) (hs : pushStep sys () spurious = some sys') :
    Carries sys' asked := by
  obtain ⟨q, hq, hlog⟩ := h.holds
  refine ⟨holds_logs hlog (l := .prod () spurious) hs (hq.push hs), ?_⟩
  rw [h.asked]
  cases hpc : sys.prod () with
  | idle => simp [pushStep, hpc] at hs
  | loadWrite x =>
    simp only [pushStep, hpc, Option.some.injEq] at hs
    simp [← hs, Sys.setProd, inFlight]
  | loadRead x currentWrite =>
    simp only [pushStep, hpc, Option.some.injEq] at hs
    simp [← hs, Sys.setProd, inFlight]
  | fill x currentWrite currentRead =>
    simp only [pushStep, hpc] at hs
    split at hs <;> cases hs <;> simp [Sys.setProd, writeSlot, inFlight]
  | cas x currentWrite =>
    simp only [pushStep, hpc] at hs
    split at hs <;> cases hs <;> simp [Sys.setProd, claim, inFlight]

theorem Carries.pop (h : Carries sys asked) : Carries (popStep sys) asked := by
  obtain ⟨q, hq, hlog⟩ := h.holds
  refine ⟨holds_logs hlog (l := .tryPop) rfl hq.tryPop, ?_⟩
  rw [h.asked]
  simp only [popStep]
  cases sys.cons with
  | loadWrite currentRead => dsimp only; split <;> rfl
  | _ => rfl

/-- What is popped is a prefix of what was asked for. -/
theorem Carries.popped_prefix (h : Carries sys asked) : sys.popped <+: asked := by
  obtain ⟨q, -, hlog⟩ := h.holds
  exact ⟨q ++ inFlight (sys.prod ()), by rw [h.asked, hlog, List.append_assoc]⟩

/-- An empty ring with nobody pushing: all of it. -/
theorem Carries.popped_all (h : Carries sys asked) (hidle : sys.prod () = .idle)
    (hempty : sys.ring.readIdx = sys.ring.writeIdx) : sys.popped = asked := by
  obtain ⟨q, hq, hlog⟩ := h.holds
  have hocc := hq.occupancy
  rw [hempty] at hocc
  have hnil : q = [] := List.eq_nil_of_length_eq_zero (by simpa using hocc.symm)
  rw [h.asked, hlog, hidle, hnil]
  simp [inFlight]

theorem popStep_popped (sys : Sys Unit) :
    (popStep sys).popped = sys.popped ++ (popStep sys).popped.drop sys.popped.length := by
  simp only [popStep]
  cases sys.cons with
  | loadWrite currentRead => dsimp only; split <;> simp
  | _ => simp

/-! ## Steps -/

/-- A call of `OnData_lv2`: a message and the two readings of the clock. -/
abbrev Handed := Bytes × UInt64 × UInt64

def Handed.message (c : Handed) : Message := .lv2 (Mem.ofBytes c.1) c.1.length c.2.1 c.2.2

/-- `OnData_lv2` asks for one record or for none. -/
theorem onDataLv2_asks {mgr mgr' : GfexQuota} {databuffer : Mem} {size : Nat} {t0 t1 : UInt64}
    (h : onDataLv2 mgr databuffer size t0 t1 = some mgr') :
    mgr'.pushed = mgr.pushed ∨ ∃ x, mgr'.pushed = mgr.pushed ++ [x] := by
  unfold onDataLv2 at h
  split at h
  · obtain ⟨symbol, -, h⟩ := Option.bind_eq_some_iff.mp h
    split at h
    · cases h
      exact .inl rfl
    · obtain ⟨cache, -, h⟩ := Option.bind_eq_some_iff.mp h
      obtain ⟨e, he, rfl⟩ := Option.map_eq_some_iff.mp h
      rw [L4.GfexHandlers.onDataLv2, Option.map_eq_some_iff] at he
      obtain ⟨front, -, rfl⟩ := he
      cases front with
      | ignored => exact .inl rfl
      | noPrice => exact .inl rfl
      | quote msgdata extime =>
        simp only [L4.GfexHandlers.lv2Filter]
        split
        · exact .inl rfl
        · split
          · exact .inl rfl
          · split
            · exact .inl rfl
            · exact .inr ⟨_, rfl⟩
  · cases h
    exact .inl rfl

/-- Between two steps: `calls` have been made, and the stream is still to bring the messages
`rest`, of which `h` bytes are held. -/
structure Inv (ms : List Bytes) (mgr₀ : GfexQuota) (h : Nat) (rest : List Bytes) (calls : List Handed)
    (p : Pipeline) : Prop where
  stream : calls.map Prod.fst ++ p.inbox ++ rest = ms
  half : Sync h rest p.half
  short : ∀ m rest', rest = m :: rest' → h < m.length
  ran : receiver.run mgr₀ (calls.map Handed.message) = some p.mgr
  ring : Carries p.sys p.mgr.pushed
  published : p.published = p.sys.popped.filterMap (dispatchMessage find reset)

variable {config find reset} {ms rest : List Bytes} {mgr₀ : GfexQuota} {h : Nat} {calls : List Handed} {p p' : Pipeline}

/-- One segment: the messages that are complete are handed on. -/
theorem Inv.segment {inputdata : Seg} {net : NetConfig} {r : Bytes} (hi : Inv find reset ms mgr₀ h rest calls p)
    (hms : ∀ m ∈ ms, Complete m) (hnet : config.Accepts net) (hcut : inputdata.bytes ++ r = rest.flatten.drop h)
    (hc : 0 < h → Continues h rest inputdata.bytes) (hr : Readable (h + inputdata.bytes.length) rest)
    (hs : step config find reset p (.segment inputdata net) = some p') :
    Inv find reset ms mgr₀ (pending (h + inputdata.bytes.length) rest) (todo (h + inputdata.bytes.length) rest) calls p' := by
  have hrest : ∀ m ∈ rest, Complete m := fun m hm => hms m (by rw [← hi.stream]; exact List.mem_append_right _ hm)
  obtain ⟨h1, h2⟩ := lv2Handler_fits hnet hrest hi.half hcut hc hr
  simp only [step, Option.ite_none_right_eq_some, Option.some.injEq] at hs
  obtain ⟨⟨hinbox, -⟩, rfl⟩ := hs
  refine ⟨?_, h2, fun m rest' htodo => pending_lt htodo, hi.ran, hi.ring, hi.published⟩
  dsimp only
  rw [h1, List.append_assoc, complete_append_todo, ← hi.stream, hinbox, List.append_nil]

/-- A segment for another connection. -/
theorem Inv.ignored {inputdata : Seg} {net : NetConfig} (hi : Inv find reset ms mgr₀ h rest calls p)
    (hnet : ¬ config.Accepts net) (hs : step config find reset p (.segment inputdata net) = some p') :
    Inv find reset ms mgr₀ h rest calls p' := by
  simp only [step, lv2Handler, if_neg hnet, Option.ite_none_right_eq_some, Option.some.injEq] at hs
  obtain ⟨⟨hinbox, -⟩, rfl⟩ := hs
  have hstream := hi.stream
  rw [hinbox] at hstream
  exact ⟨hstream, hi.half, hi.short, hi.ran, hi.ring, hi.published⟩

/-- One message: the receiver makes one more call. -/
theorem Inv.message {t0 t1 : UInt64} (hi : Inv find reset ms mgr₀ h rest calls p)
    (hs : step config find reset p (.message t0 t1) = some p') :
    ∃ m, Inv find reset ms mgr₀ h rest (calls ++ [(m, t0, t1)]) p' := by
  simp only [step] at hs
  cases hinbox : p.inbox with
  | nil => simp [hinbox] at hs
  | cons m inbox =>
    simp only [hinbox, Option.ite_none_right_eq_some] at hs
    obtain ⟨-, hs⟩ := hs
    obtain ⟨mgr, hmgr, hs⟩ := Option.bind_eq_some_iff.mp hs
    have hstream := hi.stream
    rw [hinbox] at hstream
    have hstream' : (calls ++ [(m, t0, t1)]).map Prod.fst ++ inbox ++ rest = ms := by
      rw [← hstream]
      simp
    have hran : receiver.run mgr₀ ((calls ++ [(m, t0, t1)]).map Handed.message) = some mgr := by
      rw [List.map_append, Machine.run_append, hi.ran, Option.bind_some, List.map_cons, List.map_nil]
      exact Machine.run_cons.mpr ⟨mgr, hmgr, rfl⟩
    refine ⟨m, ?_⟩
    rcases onDataLv2_asks hmgr with hnone | ⟨x, hone⟩
    · rw [hnone, List.drop_length] at hs
      cases hs
      exact ⟨hstream', hi.half, hi.short, hran, by dsimp only; rw [hnone]; exact hi.ring, hi.published⟩
    · rw [hone, List.drop_left] at hs
      obtain ⟨sys, henter, rfl⟩ := Option.map_eq_some_iff.mp hs
      refine ⟨hstream', hi.half, hi.short, hran, by dsimp only; rw [hone]; exact hi.ring.enter henter, ?_⟩
      simp only [enter, Option.ite_none_right_eq_some, Option.some.injEq] at henter
      obtain ⟨-, rfl⟩ := henter
      exact hi.published

/-- A step of `push_l2`. -/
theorem Inv.push {spurious : Bool} (hi : Inv find reset ms mgr₀ h rest calls p)
    (hs : step config find reset p (.push spurious) = some p') : Inv find reset ms mgr₀ h rest calls p' := by
  obtain ⟨sys, hpush, rfl⟩ := Option.map_eq_some_iff.mp hs
  have hpopped : sys.popped = p.sys.popped := by
    have := (step_logs (l := .prod () spurious) hpush).2
    rw [this]
    simp only [obs]
    cases p.sys.prod () with
    | cas x currentWrite => dsimp only; split <;> simp [Fifo.deqs]
    | _ => simp [Fifo.deqs]
  exact ⟨hi.stream, hi.half, hi.short, hi.ran, hi.ring.push hpush, by dsimp only; rw [hpopped]; exact hi.published⟩

/-- A step of the dispatcher. -/
theorem Inv.pop (hi : Inv find reset ms mgr₀ h rest calls p) (hs : step config find reset p .pop = some p') :
    Inv find reset ms mgr₀ h rest calls p' := by
  cases hs
  refine ⟨hi.stream, hi.half, hi.short, hi.ran, hi.ring.pop, ?_⟩
  dsimp only
  rw [popStep_popped, List.filterMap_append, ← hi.published, ← popStep_popped]

/-! ## Runs -/

/-- Over a run, whatever its order. -/
theorem Inv.run {ls : List Label} {r : Bytes} (hi : Inv find reset ms mgr₀ h rest calls p) (hms : ∀ m ∈ ms, Complete m)
    (hcut : ((accepted config ls).map Seg.bytes).flatten ++ r = rest.flatten.drop h)
    (hf : Fits h rest ((accepted config ls).map Seg.bytes)) (hr : (machine config find reset).run p ls = some p') :
    ∃ h' rest' calls', Inv find reset ms mgr₀ h' rest' calls' p' ∧ r = rest'.flatten.drop h' := by
  induction ls generalizing p h rest calls with
  | nil =>
    simp only [Machine.run_nil, Option.some.injEq] at hr
    subst hr
    exact ⟨h, rest, calls, hi, by simpa [accepted] using hcut⟩
  | cons l ls ih =>
    obtain ⟨p1, h1, h2⟩ := Machine.run_cons.mp hr
    cases l with
    | segment inputdata net =>
      by_cases hnet : config.Accepts net
      · simp only [accepted, if_pos hnet, List.map_cons, List.flatten_cons, List.append_assoc] at hcut hf
        obtain ⟨⟨hc, hread⟩, hf⟩ := hf
        refine ih (hi.segment hms hnet hcut hc hread h1) ?_ hf h2
        rw [← flatten_drop_add, ← hcut, List.drop_left]
      · simp only [accepted, if_neg hnet] at hcut hf
        exact ih (hi.ignored hnet h1) hcut hf h2
    | message t0 t1 =>
      have hmsg : step config find reset p (.message t0 t1) = some p1 := h1
      obtain ⟨m, hi'⟩ := hi.message hmsg
      exact ih hi' hcut hf h2
    | push spurious =>
      have hpush : step config find reset p (.push spurious) = some p1 := h1
      exact ih (hi.push hpush) hcut hf h2
    | pop =>
      have hpop : step config find reset p .pop = some p1 := h1
      exact ih (hi.pop hpop) hcut hf h2

/-- **End to end.** The messages of the stream that have been handed on so far, and what of them
is published; and when the stream is in and nothing is left to do, that it is all of it. -/
theorem published_messages (config : NetConfig) (find : Bytes → Option L4.GfexDispatch.StaticInfo)
    (reset : MarketData) (ms : List Bytes) (hms : ∀ m ∈ ms, Complete m) (p₀ p : Pipeline) (ls : List Label) (r : Bytes)
    (h0 : Init p₀) (hcut : ((accepted config ls).map Seg.bytes).flatten ++ r = ms.flatten)
    (hf : Fits 0 ms ((accepted config ls).map Seg.bytes)) (hr : (machine config find reset).run p₀ ls = some p) :
    ∃ calls : List Handed,
      calls.map Prod.fst <+: ms ∧ receiver.run p₀.mgr (calls.map Handed.message) = some p.mgr ∧
      p.published <+: p.mgr.pushed.filterMap (dispatchMessage find reset) ∧
      (r = [] → p.inbox = [] → calls.map Prod.fst = ms) ∧
      (p.sys.prod () = .idle → p.sys.ring.readIdx = p.sys.ring.writeIdx →
        p.published = p.mgr.pushed.filterMap (dispatchMessage find reset)) := by
  have hi : Inv find reset ms p₀.mgr 0 ms [] p₀ := by
    refine ⟨by simp [h0.inbox], h0.half ▸ Sync.idle rfl, fun m rest' hrest => ?_, rfl, ⟨⟨[], init_holds h0.sys, ?_⟩, ?_⟩, ?_⟩
    · have := (hms m (by simp [hrest])).1
      exact List.length_pos_iff.mpr this
    · simp [h0.sys.pushed, h0.sys.popped]
    · simp [h0.mgr, h0.sys.pushed, h0.sys.prod, inFlight]
    · simp [h0.published, h0.sys.popped]
  obtain ⟨h', rest', calls, hi', hleft⟩ := hi.run hms (by rw [hcut, List.drop_zero]) hf hr
  refine ⟨calls, ⟨p.inbox ++ rest', by rw [← List.append_assoc, hi'.stream]⟩, hi'.ran, ?_, ?_, ?_⟩
  · rw [hi'.published]
    exact hi'.ring.popped_prefix.filterMap _
  · intro hrnil hinbox
    have hrest : rest' = [] := by
      cases hrest : rest' with
      | nil => rfl
      | cons m rest'' =>
        have hlt := hi'.short m rest'' hrest
        have hlen := congrArg List.length (hrnil ▸ hleft)
        rw [hrest, List.length_nil, List.length_drop, List.flatten_cons, List.length_append] at hlen
        omega
    have := hi'.stream
    rwa [hinbox, hrest, List.append_nil, List.append_nil] at this
  · intro hidle hempty
    rw [hi'.published, hi'.ring.popped_all hidle hempty]

/-! ## A book in two segments -/

/-- A receiver that finds `lc`. -/
def lc : Bytes := [0x6c, 0x63]

def subscribed : Pipeline :=
  ⟨.start, [], { GfexQuota.start with
    mQuotaCache := ⟨[(L2.InstMap.charsToUint128 lc, ⟨0, 0, 0, 0, 0, 0, 0⟩)], List.pairwise_singleton _ _⟩ },
    start Unit 0, []⟩

/-- The first 100 bytes of a message, the others with ten bytes of the next one; it is handed on,
pushed in four steps and published after four of the dispatcher. -/
def twoSegments (book next : Bytes) : List Label :=
  [.segment ⟨book.take 100, fun _ => 0⟩ ⟨1, 2, 3⟩, .segment ⟨book.drop 100 ++ next.take 10, fun _ => 0⟩ ⟨1, 2, 3⟩,
    .message 5 6, .push false, .push false, .push false, .push false, .pop, .pop, .pop, .pop]

theorem twoSegments_accepted (book next : Bytes) : (accepted ⟨0, 0, 0⟩ (twoSegments book next)).map Seg.bytes =
    [book.take 100, book.drop 100 ++ next.take 10] := rfl

theorem twoSegments_cut (book next : Bytes) :
    [book.take 100, book.drop 100 ++ next.take 10].flatten ++ next.drop 10 = [book, next].flatten := by
  simp only [List.flatten_cons, List.flatten_nil, List.append_nil, List.append_assoc, List.take_append_drop]
  rw [← List.append_assoc, List.take_append_drop]

/-- The slot is written. -/
theorem step_fill {x : Slot} {w r : UInt64} {spurious : Bool} (hpc : p.sys.prod () = .fill x w r)
    (hfree : isFull r w = false) : step config find reset p (.push spurious) =
      some { p with sys := (writeSlot p.sys () x w).setProd () (.cas x w) } := by
  rw [step, pushStep, hpc]
  simp [hfree]

/-- Such a run, with a message that is pushed. -/
theorem twoSegments_run {find : Bytes → Option L4.GfexDispatch.StaticInfo} {reset : MarketData} {book next : Bytes}
    {mgr : GfexQuota} {x : Slot} (hms : ∀ m ∈ [book, next], Complete m) (hbook : book.length = 676)
    (hnext : 10 < next.length) (hfits : Fits 0 [book, next] [book.take 100, book.drop 100 ++ next.take 10])
    (hmgr : onDataLv2 subscribed.mgr (Mem.ofBytes book) book.length 5 6 = some mgr) (hpushed : mgr.pushed = [x]) :
    ∃ p, (machine ⟨0, 0, 0⟩ find reset).run subscribed (twoSegments book next) = some p ∧ p.mgr = mgr ∧
      p.sys.prod () = .idle ∧ p.sys.ring.readIdx = p.sys.ring.writeIdx := by
  have hnet : (⟨0, 0, 0⟩ : NetConfig).Accepts ⟨1, 2, 3⟩ := by decide
  have hcut : book.take 100 ++ (book.drop 100 ++ next) = [book, next].flatten := by simp [← List.append_assoc]
  have htodo : todo (book.take 100).length [book, next] = [book, next] := by simp [todo, hbook]
  have hpending : pending (book.take 100).length [book, next] = 100 := by simp [pending, hbook]
  obtain ⟨⟨hc1, hr1⟩, ⟨hc2, hr2⟩, -⟩ := hfits
  rw [Nat.zero_add] at hr1 hc2 hr2
  rw [htodo, hpending] at hc2 hr2
  obtain ⟨hout1, hsync⟩ := @lv2Handler_fits _ _ hnet _ _ _ ⟨book.take 100, fun _ => 0⟩ (book.drop 100 ++ next)
    hms (Sync.idle (g := HalfPacket.start) rfl) hcut hc1 (by rwa [Nat.zero_add])
  simp only [Nat.zero_add, htodo, hpending] at hsync
  have hcut2 : (book.drop 100 ++ next.take 10) ++ next.drop 10 = [book, next].flatten.drop 100 := by
    simp [List.drop_append_of_le_length, hbook]
  obtain ⟨hout2, -⟩ := @lv2Handler_fits _ _ hnet _ _ _ ⟨book.drop 100 ++ next.take 10, fun _ => 0⟩ (next.drop 10)
    hms hsync hcut2 hc2 hr2
  have hlen : (book.drop 100 ++ next.take 10).length = 586 := by
    rw [List.length_append, List.length_drop, List.length_take, hbook]
    omega
  have hone : complete 686 [book, next] = [book] := by
    simp only [complete, hbook]
    rw [if_pos (by decide), if_neg (by omega)]
  have hnone : complete 100 [book, next] = [] := by simp [complete, hbook]
  simp only [Nat.zero_add, List.length_take, hbook, Nat.min_eq_left (show 100 ≤ 676 by decide), hnone] at hout1
  rw [hlen, hone] at hout2
  generalize hh1 : lv2Handler ⟨0, 0, 0⟩ .start ⟨book.take 100, fun _ => 0⟩ ⟨1, 2, 3⟩ = handed1 at hout1 hout2
  generalize hh2 : lv2Handler ⟨0, 0, 0⟩ handed1.2 ⟨book.drop 100 ++ next.take 10, fun _ => 0⟩ ⟨1, 2, 3⟩ = handed2
    at hout2
  have hseg1 : step ⟨0, 0, 0⟩ find reset subscribed (.segment ⟨book.take 100, fun _ => 0⟩ ⟨1, 2, 3⟩) =
      some { subscribed with half := handed1.2, inbox := [] } := by
    rw [step, if_pos ⟨rfl, rfl⟩, show subscribed.half = .start from rfl, hh1]
    dsimp only
    rw [hout1]
  have hseg2 : step ⟨0, 0, 0⟩ find reset { subscribed with half := handed1.2, inbox := [] }
      (.segment ⟨book.drop 100 ++ next.take 10, fun _ => 0⟩ ⟨1, 2, 3⟩) =
        some { subscribed with half := handed2.2, inbox := [book] } := by
    rw [step, if_pos ⟨rfl, rfl⟩]
    dsimp only
    rw [hh2, hout2]
  have hmsg : step ⟨0, 0, 0⟩ find reset { subscribed with half := handed2.2, inbox := [book] } (.message 5 6) =
      (enter subscribed.sys () x).map fun sys =>
        { subscribed with half := handed2.2, inbox := [], mgr := mgr, sys := sys } := by
    rw [step]
    dsimp only
    rw [if_pos (show subscribed.sys.prod () = .idle from rfl), hmgr, Option.bind_some, hpushed]
    rfl
  have hfree : isFull 0 0 = false := by decide
  have hpush : ∃ p, (machine ⟨0, 0, 0⟩ find reset).run
      ⟨handed2.2, [], mgr, { start Unit 0 with ring.sequence := 1 }.setProd () (.loadWrite x), []⟩
      [.push false, .push false, .push false, .push false, .pop, .pop, .pop, .pop] = some p ∧ p.mgr = mgr ∧
        p.sys.prod () = .idle ∧ p.sys.ring.readIdx = p.sys.ring.writeIdx := by
    refine ⟨_, Machine.run_cons.mpr ⟨_, rfl, Machine.run_cons.mpr ⟨_, rfl, Machine.run_cons.mpr
      ⟨_, @step_fill ⟨0, 0, 0⟩ find reset _ _ _ _ _ rfl hfree, rfl⟩⟩⟩, ?_, ?_, ?_⟩
    all_goals rfl
  obtain ⟨p, hrun, hp⟩ := hpush
  exact ⟨p, Machine.run_cons.mpr ⟨_, hseg1, Machine.run_cons.mpr ⟨_, hseg2, Machine.run_cons.mpr ⟨_, hmsg, hrun⟩⟩⟩, hp⟩

/-- A book of `lc` at 09:00:00. -/
def lcBook : Bytes :=
  (((L4.Suppression.sampleBook 1).memcpy 4 (Mem.ofBytes [0xa4, 2]) 2).memcpy 17 (Mem.ofBytes lc) 2).slice 0 lv2ObQuoteLen

theorem lcBook_length : lcBook.length = 676 := by
  simp only [lcBook, Mem.slice_length, lv2ObQuoteLen]

theorem lcBook_complete : ∀ m ∈ [lcBook, sampleMsg], Complete m := by
  intro m hm
  rcases List.mem_pair.mp hm with hm | hm
  · rw [hm, Complete, lcBook_length]
    exact ⟨List.ne_nil_of_length_pos (by rw [lcBook_length]; decide),
      shows_of_length (by decide +kernel) (by decide +kernel)⟩
  · exact hm ▸ sampleMsg_complete sampleMsg List.mem_cons_self

theorem lcBook_fits : Fits 0 [lcBook, sampleMsg] [lcBook.take 100, lcBook.drop 100 ++ sampleMsg.take 10] := by
  have hmsg : sampleMsg.length = 104 := by decide
  have htake : Shows (lcBook.take 100) 676 := shows_of_length (by decide +kernel) (by decide +kernel)
  have hdrop : Shows (lcBook.drop 100 ++ sampleMsg.take 10) 0 := shows_of_length (by decide +kernel) (by decide +kernel)
  have hnext : Shows (sampleMsg.take 10) 104 := shows_of_length (by decide) (by decide)
  have hcontinues : Continues 100 [lcBook, sampleMsg] (lcBook.drop 100 ++ sampleMsg.take 10) :=
    ⟨by simp [lcBook_length, hmsg], hdrop, by simp [lcBook_length, hmsg]⟩
  simp [Fits, Readable, pending, todo, lcBook_length, hmsg, htake, hnext, hcontinues]

/-- The static values `DispatchMessage` finds. -/
def limits (_ : Bytes) : Option L4.GfexDispatch.StaticInfo := some ⟨0, 20, 10, 0, 0⟩

/-- The book is accepted, and a record is made of it. -/
theorem lcBook_accepted : ∃ mgr x, onDataLv2 subscribed.mgr (Mem.ofBytes lcBook) lcBook.length 5 6 = some mgr ∧
    mgr.pushed = [x] ∧ (mgr.pushed.filterMap (dispatchMessage limits .zero)).map MarketData.instrumentId = [lc] := by
  have h : (onDataLv2 subscribed.mgr (Mem.ofBytes lcBook) lcBook.length 5 6).map (fun mgr =>
      (mgr.pushed.length, (mgr.pushed.filterMap (dispatchMessage limits .zero)).map MarketData.instrumentId)) =
        some (1, [lc]) := by
    decide +kernel
  obtain ⟨mgr, hmgr, heq⟩ := Option.map_eq_some_iff.mp h
  obtain ⟨hone, hrecords⟩ := Prod.mk.inj heq
  obtain ⟨x, hx⟩ := List.length_eq_one_iff.mp hone
  exact ⟨mgr, x, hmgr, hx, hrecords⟩

/-- It is published. -/
theorem published_messages_book : ∃ p, ∃ calls : List Handed,
    (machine ⟨0, 0, 0⟩ limits .zero).run subscribed (twoSegments lcBook sampleMsg) = some p ∧
    calls.map Prod.fst <+: [lcBook, sampleMsg] ∧ receiver.run subscribed.mgr (calls.map Handed.message) = some p.mgr ∧
    p.published = p.mgr.pushed.filterMap (dispatchMessage limits .zero) ∧
    p.published.map MarketData.instrumentId = [lc] := by
  obtain ⟨mgr, x, hmgr, hpushed, hrecords⟩ := lcBook_accepted
  obtain ⟨p, hrun, rfl, hidle, hempty⟩ := @twoSegments_run limits .zero _ _ _ _ lcBook_complete
    lcBook_length (by decide) lcBook_fits hmgr hpushed
  obtain ⟨calls, hprefix, hran, -, -, hall⟩ := published_messages ⟨0, 0, 0⟩ limits .zero [lcBook, sampleMsg]
    lcBook_complete subscribed p _ (sampleMsg.drop 10) ⟨rfl, rfl, rfl, start_init Unit 0, rfl⟩
    (by rw [twoSegments_accepted, twoSegments_cut]) (by rw [twoSegments_accepted]; exact lcBook_fits) hrun
  refine ⟨p, calls, hrun, hprefix, hran, hall hidle hempty, ?_⟩
  rw [hall hidle hempty, hrecords]

end MdInfoSet.L5.GfexPipeline
