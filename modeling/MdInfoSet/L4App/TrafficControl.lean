import MdInfoSet.Core.Debounce
import MdInfoSet.Core.Machine
import MdInfoSet.L1Encoding.AccMd
import Mathlib.Logic.Function.Basic

/-!
# Traffic control of the SZSE index and ETF receiver

`QxIndexEtfMd::OnData` (src/qx_index_etf_md/src/qx_index_etf_md.cpp:420-560) drops
messages of an instrument that come within `time_span` of the last one (`ONLY_SPAN`), or
those among them whose best level has not changed (`LV1_SPAN`). The label of the
instrument is written by the dropping path too:

    if ((last_quota.time > 0) && (local_time_ns_start < (last_quota.time + m_config.time_span))){
        last_quota.time = local_time_ns_start;
        return;
    }

so that a message is compared with the one right before it, published or not: traffic
control is a debouncer (`run_inv`), and a burst of messages, however long, is published
once.

**Exact conditions.** No instrument starves exactly while every burst ends within
`time_span` of its first message (`never_starves_iff`). In `LV1_SPAN` what is dropped is a
repetition of the last quote published exactly while within a burst the true bid volume
stays, which `GetInstrumentInfo` does not hand out of an option, and the products of an LF
record lose the same multiple of `2 ^ 32` (`drops_unchanged_iff`).
-/
namespace MdInfoSet.L4.TrafficControl

open MdInfoSet.L1.AccMd MdInfoSet.Debounce
open MdInfoSet.L1.Lv2Quote (cstr)

/-! ## Messages -/

/-- A message of one of the two types that are not skipped. -/
inductive Quote where
  | option (msgdata : OptionSnapShotL1)
  | lf (msgdata : MarketDataLf)
  deriving DecidableEq

/-- The four values of the best level `GetInstrumentInfo` hands out. -/
structure Lv1 where
  ap1 : UInt64
  av1 : UInt64
  bp1 : UInt64
  bv1 : UInt64

-- The derived instance casts along the equations, and runs would not evaluate.
instance : DecidableEq Lv1 := fun x y =>
  decidable_of_iff (x.ap1 = y.ap1 ∧ x.av1 = y.av1 ∧ x.bp1 = y.bp1 ∧ x.bv1 = y.bv1) (by cases x; cases y; simp)

/-- mirrors src/qx_index_etf_md/src/qx_index_etf_md.cpp:275-297
The products are those of `unsigned int`. Of an option the ask volume is handed out twice. -/
def Quote.lv1 : Quote → Lv1
  | .option m => ⟨m.askPrice, m.askVol, m.bidPrice, m.askVol⟩
  | .lf m => ⟨(m.uAskPrice * 100).toUInt64, (m.uAskVol * 100).toUInt64, (m.uBidPrice * 100).toUInt64,
      (m.uBidVol * 100).toUInt64⟩

/-- The name it returns; `none` where the C string does not end within the buffer. -/
def Quote.inst : Quote → Option Bytes
  | .option m => some m.securityId
  | .lf m => cstr m.securityId

/-- A message that passes the filter, with the clock at the beginning of the call. -/
structure Arrival where
  inst : Bytes
  time : UInt64
  quote : Quote
  deriving DecidableEq

/-- `sizeof(data)` -/
def frameSize : Nat := 2048

section Frame

variable (belongTo : Nat → Nat → Bool) (filter : Bytes → Bool)

/-- The message of a frame, if it is of one of the two types. -/
def quoteOf (data : Mem) : Option Quote :=
  let ipHLen := ((data 14 &&& 0x0f) <<< 2).toNat
  let aData := ipHLen + 22
  if belongTo (data.u32 30) (data.u16 (ipHLen + 16)) then
    if data.u32 aData = mdTypeSzLf then some (.lf (.ofMem data (aData + accDataOffset) frameSize))
    else if data.u32 aData = mdTypeSz300111L1Option then some (.option (.ofMem data (aData + accDataOffset)))
    else none
  else none

/-- `OnData` up to the filter (cpp:420-491). -/
def readFrame (now : UInt64) (data : Mem) : Option (Option Arrival) :=
  match quoteOf belongTo data with
  | none => some none
  | some quote => quote.inst.map fun inst =>
    if inst ≠ [] ∧ filter inst then some ⟨inst, now, quote⟩ else none

end Frame

/-! ## Traffic control -/

/-- mirrors src/qx_index_etf_md/src/qx_index_etf_md.h:30-44
`timeSpan` is in nanoseconds. -/
structure Config where
  mode : UInt32
  timeSpan : Int64

/-- `TRAFFIC_FLOW_MODE_ONLY_SPAN` and `TRAFFIC_FLOW_MODE_LV1_SPAN` -/
def trafficFlowModeOnlySpan : UInt32 := 1
def trafficFlowModeLv1Span : UInt32 := 2

/-- mirrors src/qx_index_etf_md/src/qx_index_etf_md.h:46-53 -/
structure MonitorLable extends Lv1 where
  time : UInt64
  deriving DecidableEq

def MonitorLable.zero : MonitorLable := ⟨⟨0, 0, 0, 0⟩, 0⟩

/-- The interval since the message the label is of is too short. -/
def Within (config : Config) (last now : UInt64) : Prop :=
  0 < last ∧ now < last + config.timeSpan.toUInt64

instance (config : Config) (last now : UInt64) : Decidable (Within config last now) := by
  unfold Within; infer_instance

/-- mirrors src/qx_index_etf_md/src/qx_index_etf_md.cpp:495-540
The label of the instrument afterwards, and whether the message goes on to `on_msg`. -/
def trafficControl (config : Config) (label : Option MonitorLable) (a : Arrival) : Option MonitorLable × Bool :=
  if config.mode = 0 then (label, true)
  else match label with
    | some lastQuota =>
      if config.mode = trafficFlowModeOnlySpan then
        (some { lastQuota with time := a.time }, ¬ Within config lastQuota.time a.time)
      else if config.mode = trafficFlowModeLv1Span then
        (some ⟨a.quote.lv1, a.time⟩, ¬ (Within config lastQuota.time a.time ∧ lastQuota.toLv1 = a.quote.lv1))
      else (some lastQuota, true)
    | none => (some ⟨a.quote.lv1, a.time⟩, true)

/-! ## The machine -/

/-- The labels, and the messages that passed the filter with whether they were published.
The record passed to `on_msg` is not modelled. -/
structure Monitor where
  monitorLastQuota : Bytes → Option MonitorLable
  log : List (Arrival × Bool)

inductive Event where
  /-- A call of `OnData` with the clock and what `exanic_receive_frame` filled in. -/
  | onData (now : UInt64) (data : Mem)
  | subscribeInst (inst : Bytes)

def Monitor.arrive (config : Config) (m : Monitor) (a : Arrival) : Monitor :=
  let (label, published) := trafficControl config (m.monitorLastQuota a.inst) a
  { monitorLastQuota := fun inst => if inst = a.inst then label else m.monitorLastQuota inst
    log := m.log ++ [(a, published)] }

/-- mirrors src/qx_index_etf_md/src/qx_index_etf_md.cpp:664-667
`emplace` leaves a label that is there. -/
def Monitor.subscribeInst (m : Monitor) (inst : Bytes) : Monitor :=
  { m with
    monitorLastQuota := fun inst' =>
      if inst' = inst then some ((m.monitorLastQuota inst).getD .zero) else m.monitorLastQuota inst' }

section Machine

variable (config : Config) (belongTo : Nat → Nat → Bool) (filter : Bytes → Bool)

def step (m : Monitor) : Event → Option Monitor
  | .onData now data => (readFrame belongTo filter now data).map fun a => a.elim m (m.arrive config)
  | .subscribeInst inst => some (m.subscribeInst inst)

/-- `LoadJsonCfg` gives the instruments of the filter zeroed labels. -/
def machine : Machine Monitor Event where
  init m := m.log = [] ∧ ∀ inst label, m.monitorLastQuota inst = some label → label = .zero
  step := step config belongTo filter

/-- The messages of a run that pass the filter. -/
def arrivals (es : List Event) : List Arrival :=
  es.filterMap fun
    | .onData now data => (readFrame belongTo filter now data).join
    | .subscribeInst _ => none

end Machine

/-- The messages of one instrument. -/
def Monitor.stream (m : Monitor) (inst : Bytes) : List (Arrival × Bool) := m.log.filter fun e => e.1.inst = inst

/-! ## A debouncer -/

/-- `x` is dropped when it comes right behind `p`. -/
def Continues (config : Config) (p x : Arrival) : Prop :=
  Within config p.time x.time ∧ (config.mode = trafficFlowModeLv1Span → p.quote.lv1 = x.quote.lv1)

/-- A label is that of the last message of its instrument. -/
def LabelOf (config : Config) (s : List (Arrival × Bool)) (label : Option MonitorLable) : Prop :=
  match label, s.getLast? with
  | none, last => last = none
  | some l, none => l = .zero
  | some l, some p => l.time = p.1.time ∧ (config.mode = trafficFlowModeLv1Span → l.toLv1 = p.1.quote.lv1)

/-- The two modes that drop messages. -/
def Config.Controls (config : Config) : Prop :=
  config.mode = trafficFlowModeOnlySpan ∨ config.mode = trafficFlowModeLv1Span

section Step

variable {config : Config} {s : List (Arrival × Bool)} {label : Option MonitorLable} {a : Arrival}

theorem not_within_zero (config : Config) (now : UInt64) : ¬ Within config 0 now := fun h =>
  absurd h.1 (UInt64.lt_irrefl 0)

/-- What the label is compared with is the message right before. -/
theorem trafficControl_dropped (hmode : config.Controls) (hl : LabelOf config s label) :
    (trafficControl config label a).2 = false ↔ ∃ p ∈ s.getLast?, Continues config p.1 a := by
  have h12 : trafficFlowModeOnlySpan ≠ 0 ∧ trafficFlowModeLv1Span ≠ 0 ∧
      trafficFlowModeOnlySpan ≠ trafficFlowModeLv1Span := by decide
  unfold LabelOf at hl
  cases label with
  | none =>
    simp only at hl
    rw [hl]
    rcases hmode with hm | hm <;> simp [trafficControl, hm, h12.1, h12.2.1]
  | some l =>
    cases hs : s.getLast? with
    | none =>
      simp only [hs] at hl
      subst hl
      rcases hmode with hm | hm <;>
        simp [trafficControl, hm, h12.1, h12.2.1, h12.2.2.symm, MonitorLable.zero, not_within_zero]
    | some p =>
      simp only [hs] at hl
      obtain ⟨htime, hlv1⟩ := hl
      rcases hmode with hm | hm
      · simp [trafficControl, Continues, hm, h12.1, h12.2.2, htime]
      · simp [trafficControl, Continues, hm, h12.2.1, h12.2.2.symm, htime, hlv1 hm]

theorem trafficControl_label (hmode : config.Controls) (b : Bool) :
    LabelOf config (s ++ [(a, b)]) (trafficControl config label a).1 := by
  have h12 : trafficFlowModeOnlySpan ≠ 0 ∧ trafficFlowModeLv1Span ≠ 0 ∧
      trafficFlowModeOnlySpan ≠ trafficFlowModeLv1Span := by decide
  unfold LabelOf
  rw [List.getLast?_concat]
  cases label with
  | none => rcases hmode with hm | hm <;> simp [trafficControl, hm, h12.1, h12.2.1]
  | some l =>
    rcases hmode with hm | hm
    · simp [trafficControl, hm, h12.1, h12.2.2]
    · simp [trafficControl, hm, h12.2.1, h12.2.2.symm]

end Step

/-- Each stream is that of a debouncer, and each label that of its last message. -/
structure Inv (config : Config) (m : Monitor) : Prop where
  debounced : ∀ inst, Debounced (Continues config) (m.stream inst)
  label : ∀ inst, LabelOf config (m.stream inst) (m.monitorLastQuota inst)

section Run

variable {config : Config} {belongTo : Nat → Nat → Bool} {filter : Bytes → Bool} {m m' m₀ : Monitor}
  {es : List Event}

theorem stream_arrive (m : Monitor) (a : Arrival) (inst : Bytes) : (m.arrive config a).stream inst =
    m.stream inst ++
      if a.inst = inst then [(a, (trafficControl config (m.monitorLastQuota a.inst) a).2)] else [] := by
  simp only [Monitor.arrive, Monitor.stream, List.filter_append]
  by_cases h : a.inst = inst <;> simp [h]

theorem inv_arrive (hmode : config.Controls) (hinv : Inv config m) (a : Arrival) :
    Inv config (m.arrive config a) := by
  have hdrop := @trafficControl_dropped _ _ _ a hmode (hinv.label a.inst)
  have hlabel := @trafficControl_label _ (m.stream a.inst) (m.monitorLastQuota a.inst) a hmode
    (trafficControl config (m.monitorLastQuota a.inst) a).2
  refine ⟨fun inst => ?_, fun inst => ?_⟩
  · rw [stream_arrive]
    by_cases h : a.inst = inst
    · subst h
      rw [if_pos rfl, debounced_append]
      exact ⟨hinv.debounced _, hdrop⟩
    · rw [if_neg h, List.append_nil]
      exact hinv.debounced inst
  · rw [stream_arrive]
    by_cases h : a.inst = inst
    · subst h
      simpa [Monitor.arrive] using hlabel
    · simpa [Monitor.arrive, h, Ne.symm h] using hinv.label inst

theorem inv_subscribeInst (hinv : Inv config m) (inst : Bytes) : Inv config (m.subscribeInst inst) := by
  refine ⟨hinv.debounced, fun inst' => ?_⟩
  have hl := hinv.label inst'
  have hs : (m.subscribeInst inst).stream inst' = m.stream inst' := rfl
  rw [hs]
  by_cases h : inst' = inst
  · subst h
    simp only [Monitor.subscribeInst, if_pos]
    cases hm : m.monitorLastQuota inst' with
    | none =>
      simp only [LabelOf, hm] at hl
      simp [LabelOf, hl]
    | some l => rwa [hm] at hl
  · simpa only [Monitor.subscribeInst, if_neg h] using hl

/-- One event: nothing arrives, or one message does. -/
theorem step_cases {e : Event} (h : (machine config belongTo filter).step m e = some m') :
    (arrivals belongTo filter [e] = [] ∧ (m' = m ∨ ∃ inst, m' = m.subscribeInst inst)) ∨
      ∃ a, arrivals belongTo filter [e] = [a] ∧ m' = m.arrive config a := by
  cases e with
  | onData now data =>
    obtain ⟨r, hr, rfl⟩ := Option.map_eq_some_iff.mp h
    cases r with
    | none => exact .inl ⟨by simp [arrivals, hr], .inl rfl⟩
    | some a => exact .inr ⟨a, by simp [arrivals, hr], rfl⟩
  | subscribeInst inst =>
    cases h
    exact .inl ⟨rfl, .inr ⟨inst, rfl⟩⟩

theorem arrivals_cons (e : Event) (es : List Event) :
    arrivals belongTo filter (e :: es) = arrivals belongTo filter [e] ++ arrivals belongTo filter es := by
  rw [arrivals, arrivals, arrivals, ← List.filterMap_append]
  rfl

/-- A run keeps the invariant, and its streams are those of its messages. -/
theorem run_inv (hmode : config.Controls) (hinv : Inv config m)
    (hr : (machine config belongTo filter).run m es = some m') :
    Inv config m' ∧ m'.log.map Prod.fst = m.log.map Prod.fst ++ arrivals belongTo filter es := by
  induction es generalizing m with
  | nil =>
    cases hr
    exact ⟨hinv, by simp [arrivals]⟩
  | cons e es ih =>
    obtain ⟨m1, h1, h2⟩ := Machine.run_cons.mp hr
    rw [arrivals_cons]
    rcases step_cases h1 with ⟨ha, rfl | ⟨inst, rfl⟩⟩ | ⟨a, ha, rfl⟩
    · rw [ha]
      exact ih hinv h2
    · rw [ha]
      exact @ih (m.subscribeInst inst) (inv_subscribeInst hinv inst) h2
    · obtain ⟨hinv', hlog⟩ := ih (inv_arrive hmode hinv a) h2
      refine ⟨hinv', ?_⟩
      rw [hlog, ha]
      simp [Monitor.arrive]

theorem inv_init (h : (machine config belongTo filter).init m) : Inv config m := by
  have hs : ∀ inst, m.stream inst = [] := fun inst => by rw [Monitor.stream, h.1, List.filter_nil]
  refine ⟨fun inst => ?_, fun inst => ?_⟩
  · rw [hs]
    exact debounced_nil
  · rw [hs]
    cases hm : m.monitorLastQuota inst with
    | none => rfl
    | some l => exact h.2 inst l hm

/-- What a run from the start leaves. -/
theorem run_streams (hmode : config.Controls) (h₀ : (machine config belongTo filter).init m₀)
    (hr : (machine config belongTo filter).run m₀ es = some m) (inst : Bytes) :
    Debounced (Continues config) (m.stream inst) ∧
      (m.stream inst).map Prod.fst = (arrivals belongTo filter es).filter fun a => a.inst = inst := by
  obtain ⟨hinv, hlog⟩ := run_inv hmode (inv_init h₀) hr
  refine ⟨hinv.debounced inst, ?_⟩
  rw [h₀.1, List.map_nil, List.nil_append] at hlog
  rw [← hlog, List.filter_map]
  rfl

end Run

/-! ## Starvation -/

/-- A message is dropped only while one of its instrument was published less than
`time_span` before. -/
def NeverStarves (config : Config) (m : Monitor) : Prop :=
  ∀ inst pre x post, m.stream inst = pre ++ (x, false) :: post →
    ∃ q, (q, true) ∈ pre ∧ (x.time.toNat : Int) - config.timeSpan.toInt < q.time.toNat ∧ q.time ≤ x.time

/-- The messages of one instrument in a run. -/
def arrivalsOf (belongTo : Nat → Nat → Bool) (filter : Bytes → Bool) (es : List Event) (inst : Bytes) :
    List Arrival :=
  (arrivals belongTo filter es).filter fun a => a.inst = inst

/-- The last message published before another one was published no earlier than the others. -/
theorem le_lastPassed {s : List (Arrival × Bool)} {f q x : Arrival} (hs : LastPassed s f) (hq : (q, true) ∈ s)
    (hmono : ((s ++ [(x, false)]).map Prod.fst).Pairwise fun a b => a.time ≤ b.time) :
    q.time ≤ f.time ∧ f.time ≤ x.time := by
  obtain ⟨pre, mid, rfl, hmid⟩ := hs
  simp only [List.append_assoc, List.cons_append, List.map_append, List.map_cons, List.pairwise_append,
    List.pairwise_cons, List.mem_append, List.mem_cons, List.mem_map] at hmono
  obtain ⟨-, ⟨hf, -⟩, hpre⟩ := hmono
  refine ⟨?_, hf x (.inr (by simp))⟩
  rcases List.mem_append.mp hq with hq | hq
  · exact hpre q ⟨_, hq, rfl⟩ f (.inl rfl)
  · rcases List.mem_cons.mp hq with hq | hq
    · cases hq
      exact UInt64.le_refl _
    · cases hmid _ hq

section Runs

variable {config : Config} {belongTo : Nat → Nat → Bool} {filter : Bytes → Bool} {m m₀ : Monitor}
  {es : List Event}

/-- **Exact condition.** While the clock does not go back, no instrument starves if and only
if no burst goes on for `time_span` or longer. -/
theorem never_starves_iff (hmode : config.Controls) (h₀ : (machine config belongTo filter).init m₀)
    (hr : (machine config belongTo filter).run m₀ es = some m)
    (hmono : ((arrivals belongTo filter es).map (·.time)).Pairwise (· ≤ ·)) :
    NeverStarves config m ↔ ∀ inst f x, Burst (Continues config) (arrivalsOf belongTo filter es inst) f x →
      (x.time.toNat : Int) < f.time.toNat + config.timeSpan.toInt := by
  unfold NeverStarves
  refine forall_congr' fun inst => ?_
  obtain ⟨hdeb, hstream⟩ := run_streams hmode h₀ hr inst
  have hsorted : ((m.stream inst).map Prod.fst).Pairwise fun a b => a.time ≤ b.time := by
    rw [hstream]
    exact (List.pairwise_map.mp hmono).filter _
  rw [arrivalsOf, ← hstream, ← hdeb.dropped_iff]
  refine forall_congr' fun pre => forall_congr' fun x => forall_congr' fun post => imp_congr_right fun hs => ?_
  have hmono' : ((pre ++ [(x, false)]).map Prod.fst).Pairwise fun a b => a.time ≤ b.time := by
    refine hsorted.sublist (List.Sublist.map _ ?_)
    rw [hs]
    simp
  constructor
  · rintro ⟨q, hq, hlt, -⟩ f hf
    have hle := UInt64.le_iff_toNat_le.mp (le_lastPassed hf hq hmono').1
    omega
  · intro hP
    rw [hs] at hdeb
    obtain ⟨f, hf⟩ := hdeb.lastPassed
    have hmem : (f, true) ∈ pre := by
      obtain ⟨pre', mid, rfl, -⟩ := hf
      simp
    have hlt := hP f hf
    exact ⟨f, hmem, by omega, (le_lastPassed hf hmem hmono').2⟩

end Runs

/-- `159915` -/
def etf : Bytes := [0x31, 0x35, 0x39, 0x39, 0x31, 0x35]

/-- A frame with a 20-byte IP header that carries a record of the given type. -/
def frameOf (type : UInt8) (record : Bytes) : Mem :=
  Mem.ofBytes (List.replicate 14 0 ++ [0x45] ++ List.replicate 27 0 ++ [type, 0, 2, 0] ++
    List.replicate 4 0 ++ record)

/-- LF records of `etf`, at the given milliseconds. -/
def everyMs (times : List UInt64) : List Event := times.map fun t => .onData (t * 1000000) (frameOf 8 etf)

/-- The labels after `LoadJsonCfg`. -/
def Monitor.start : Monitor := ⟨fun _ => none, []⟩

def acceptAll (config : Config) : Machine Monitor Event := machine config (fun _ _ => true) fun _ => true

theorem start_init (config : Config) : (acceptAll config).init .start :=
  ⟨rfl, fun _ _ h => by cases h⟩

/-- The times of a stream in milliseconds, with the verdicts. -/
def verdicts (m : Monitor) (inst : Bytes) : List (UInt64 × Bool) :=
  (m.stream inst).map fun e => (e.1.time / 1000000, e.2)

/-- Two messages in 6 ms: the burst ends before the span of 10 ms does. -/
theorem never_starves_iff_two : ∃ m, (acceptAll ⟨1, 10000000⟩).run .start (everyMs [1000, 1006]) = some m ∧
    verdicts m etf = [(1000, true), (1006, false)] ∧
    (NeverStarves ⟨1, 10000000⟩ m ↔ ∀ inst f x, Burst (Continues ⟨1, 10000000⟩)
      (arrivalsOf (fun _ _ => true) (fun _ => true) (everyMs [1000, 1006]) inst) f x →
        (x.time.toNat : Int) < f.time.toNat + (10000000 : Int64).toInt) := by
  have hrun : ((acceptAll ⟨1, 10000000⟩).run .start (everyMs [1000, 1006])).map (verdicts · etf) =
      some [(1000, true), (1006, false)] := by decide +kernel
  obtain ⟨m, hm, hv⟩ := Option.map_eq_some_iff.mp hrun
  exact ⟨m, hm, hv, never_starves_iff (.inl rfl) (start_init _) hm (by decide +kernel)⟩

/-- **Counterexample.** A message every 6 ms: the third is dropped 12 ms after the last one
that was published. -/
theorem starved_by_a_burst : ¬ ∀ (config : Config) (belongTo : Nat → Nat → Bool) (filter : Bytes → Bool)
    (m₀ m : Monitor) (es : List Event), config.Controls → (machine config belongTo filter).init m₀ →
    (machine config belongTo filter).run m₀ es = some m →
    ((arrivals belongTo filter es).map (·.time)).Pairwise (· ≤ ·) → NeverStarves config m := by
  intro h
  have hrun : ((acceptAll ⟨1, 10000000⟩).run .start (everyMs [1000, 1006, 1012])).map
      (fun m => (m.stream etf).map fun e => (e.1.time, e.2)) =
        some [(1000000000, true), (1006000000, false), (1012000000, false)] := by decide +kernel
  obtain ⟨m, hm, hv⟩ := Option.map_eq_some_iff.mp hrun
  obtain ⟨e1, l1, h1, he1, hv⟩ := List.map_eq_cons_iff.mp hv
  obtain ⟨e2, l2, rfl, he2, hv⟩ := List.map_eq_cons_iff.mp hv
  obtain ⟨⟨x, b⟩, l3, rfl, hx, -⟩ := List.map_eq_cons_iff.mp hv
  simp only [Prod.mk.injEq] at he1 he2 hx
  obtain ⟨hx, rfl⟩ := hx
  obtain ⟨q, hq, hlt, -⟩ := h _ _ _ _ m _ (.inl rfl) (start_init _) hm (by decide +kernel) etf [e1, e2] x l3 h1
  simp only [List.mem_cons, List.not_mem_nil, or_false] at hq
  rcases hq with rfl | rfl
  · rw [he1.1, hx] at hlt
    revert hlt
    decide
  · cases he2.2

/-! ## Repetitions -/

/-- The best level of a message in the scaling the labels are documented to have: prices
by 1000000, volumes by 100. -/
structure Top where
  ap1 : Nat
  av1 : Nat
  bp1 : Nat
  bv1 : Nat
  deriving DecidableEq

def Quote.top : Quote → Top
  | .option m => ⟨m.askPrice.toNat, m.askVol.toNat, m.bidPrice.toNat, m.bidVol.toNat⟩
  | .lf m => ⟨m.uAskPrice.toNat * 100, m.uAskVol.toNat * 100, m.uBidPrice.toNat * 100, m.uBidVol.toNat * 100⟩

/-- The multiples of `2 ^ 32` the products for the ask price, the ask volume and the bid
price lose. -/
def Quote.lost : Quote → Nat × Nat × Nat
  | .option _ => (0, 0, 0)
  | .lf m => (m.uAskPrice.toNat * 100 / 2 ^ 32, m.uAskVol.toNat * 100 / 2 ^ 32, m.uBidPrice.toNat * 100 / 2 ^ 32)

/-- What is handed out, and what is lost on the way. -/
theorem top_eq (q : Quote) : q.top.ap1 = q.lv1.ap1.toNat + 2 ^ 32 * q.lost.1 ∧
    q.top.av1 = q.lv1.av1.toNat + 2 ^ 32 * q.lost.2.1 ∧ q.top.bp1 = q.lv1.bp1.toNat + 2 ^ 32 * q.lost.2.2 := by
  have hmul : ∀ x : UInt32, x.toNat * 100 = (x * 100).toUInt64.toNat + 2 ^ 32 * (x.toNat * 100 / 2 ^ 32) := by
    intro x
    rw [UInt32.toNat_toUInt64, UInt32.toNat_mul, show (100 : UInt32).toNat = 100 from rfl]
    omega
  cases q with
  | option m => exact ⟨rfl, rfl, rfl⟩
  | lf m => exact ⟨hmul _, hmul _, hmul _⟩

/-- Of messages with one label the best levels agree exactly if as much is lost, and the
true bid volumes agree. -/
theorem top_eq_iff {q q' : Quote} (h : q.lv1 = q'.lv1) :
    q.top = q'.top ↔ q.lost = q'.lost ∧ q.top.bv1 = q'.top.bv1 := by
  obtain ⟨h1, h2, h3⟩ := top_eq q
  obtain ⟨h1', h2', h3'⟩ := top_eq q'
  rw [← h] at h1' h2' h3'
  constructor
  · intro ht
    rw [ht] at h1 h2 h3
    refine ⟨Prod.ext (by omega) (Prod.ext (by omega) (by omega)), by rw [ht]⟩
  · intro ⟨hl, hb⟩
    rw [← hl] at h1' h2' h3'
    cases ht : q.top
    cases ht' : q'.top
    simp_all

/-- A message is dropped only while the best level is that of the message of its instrument
published last. -/
def DropsUnchanged (m : Monitor) : Prop :=
  ∀ inst pre x post, m.stream inst = pre ++ (x, false) :: post →
    ∃ f, LastPassed pre f ∧ x.quote.top = f.quote.top

section Runs

variable {config : Config} {belongTo : Nat → Nat → Bool} {filter : Bytes → Bool} {m m₀ : Monitor}
  {es : List Event}

/-- In a burst the label stays. -/
theorem burst_lv1 (hmode : config.mode = trafficFlowModeLv1Span) {xs : List Arrival} {f x : Arrival}
    (h : Burst (Continues config) xs f x) : x.quote.lv1 = f.quote.lv1 := by
  obtain ⟨pre, mid, post, -, -, hchain⟩ := h
  have hlv1 : (f :: (mid ++ [x])).IsChain fun p y => p.quote.lv1 = y.quote.lv1 :=
    hchain.imp fun p y hc => hc.2 hmode
  have htrans : IsTrans Arrival fun p y => p.quote.lv1 = y.quote.lv1 := ⟨fun _ _ _ h h' => h.trans h'⟩
  rw [List.isChain_iff_pairwise, List.pairwise_cons] at hlv1
  exact (hlv1.1 x (by simp)).symm

/-- **Exact condition.** -/
theorem drops_unchanged_iff (hmode : config.mode = trafficFlowModeLv1Span)
    (h₀ : (machine config belongTo filter).init m₀) (hr : (machine config belongTo filter).run m₀ es = some m) :
    DropsUnchanged m ↔ ∀ inst f x, Burst (Continues config) (arrivalsOf belongTo filter es inst) f x →
      x.quote.lost = f.quote.lost ∧ x.quote.top.bv1 = f.quote.top.bv1 := by
  unfold DropsUnchanged
  refine forall_congr' fun inst => ?_
  obtain ⟨hdeb, hstream⟩ := run_streams (.inr hmode) h₀ hr inst
  have htop : (∀ f x, Burst (Continues config) (arrivalsOf belongTo filter es inst) f x →
      x.quote.lost = f.quote.lost ∧ x.quote.top.bv1 = f.quote.top.bv1) ↔
        ∀ f x, Burst (Continues config) (arrivalsOf belongTo filter es inst) f x → x.quote.top = f.quote.top :=
    forall_congr' fun f => forall_congr' fun x => imp_congr_right fun hb => (top_eq_iff (burst_lv1 hmode hb)).symm
  rw [htop, arrivalsOf, ← hstream, ← @Debounced.dropped_iff _ _ _ (fun f x => x.quote.top = f.quote.top) hdeb]
  refine forall_congr' fun pre => forall_congr' fun x => forall_congr' fun post => imp_congr_right fun hs => ?_
  constructor
  · intro ⟨f, hf, heq⟩ g hg
    rwa [lastPassed_unique hg hf]
  · intro hP
    rw [hs] at hdeb
    obtain ⟨f, hf⟩ := hdeb.lastPassed
    exact ⟨f, hf, hP f hf⟩

end Runs

/-- `10000001` -/
def option1 : Bytes := [0x31, 0x30, 0x30, 0x30, 0x30, 0x30, 0x30, 0x31]

/-- Option records that differ in the best bid volume, 5 ms apart. -/
def bidVols (vols : List UInt8) : List Event := vols.mapIdx fun i v =>
  .onData (1000000000 + 5000000 * UInt64.ofNat i) (frameOf 7 (option1 ++ List.replicate 168 0 ++ [v]))

/-- The second message repeats the first. -/
theorem drops_unchanged_iff_two : ∃ m, (acceptAll ⟨2, 10000000⟩).run .start (bidVols [1, 1]) = some m ∧
    verdicts m option1 = [(1000, true), (1005, false)] ∧
    (DropsUnchanged m ↔ ∀ inst f x, Burst (Continues ⟨2, 10000000⟩)
      (arrivalsOf (fun _ _ => true) (fun _ => true) (bidVols [1, 1]) inst) f x →
        x.quote.lost = f.quote.lost ∧ x.quote.top.bv1 = f.quote.top.bv1) := by
  have hrun : ((acceptAll ⟨2, 10000000⟩).run .start (bidVols [1, 1])).map (verdicts · option1) =
      some [(1000, true), (1005, false)] := by decide +kernel
  obtain ⟨m, hm, hv⟩ := Option.map_eq_some_iff.mp hrun
  exact ⟨m, hm, hv, drops_unchanged_iff rfl (start_init _) hm⟩

/-- **Counterexample.** The best bid volume goes from 1 to 2, and the message is dropped. -/
theorem changed_bid_volume_dropped : ¬ ∀ (config : Config) (belongTo : Nat → Nat → Bool)
    (filter : Bytes → Bool) (m₀ m : Monitor) (es : List Event), config.mode = trafficFlowModeLv1Span →
    (machine config belongTo filter).init m₀ → (machine config belongTo filter).run m₀ es = some m →
    DropsUnchanged m := by
  intro h
  have hrun : ((acceptAll ⟨2, 10000000⟩).run .start (bidVols [1, 2])).map
      (fun m => (m.stream option1).map fun e => (e.1.quote.top.bv1, e.2)) = some [(1, true), (2, false)] := by
    decide +kernel
  obtain ⟨m, hm, hv⟩ := Option.map_eq_some_iff.mp hrun
  obtain ⟨⟨e, c⟩, l1, h1, he, hv⟩ := List.map_eq_cons_iff.mp hv
  obtain ⟨⟨x, b⟩, l2, rfl, hx, -⟩ := List.map_eq_cons_iff.mp hv
  simp only [Prod.mk.injEq] at he hx
  obtain ⟨he, rfl⟩ := he
  obtain ⟨hx, rfl⟩ := hx
  have hdrops := h ⟨2, 10000000⟩ _ _ _ m _ rfl (start_init _) hm
  obtain ⟨f, hf, htop⟩ := hdrops option1 [(e, true)] x l2 h1
  rw [lastPassed_unique hf ⟨[], [], rfl, by simp⟩] at htop
  rw [htop, he] at hx
  cases hx

end MdInfoSet.L4.TrafficControl
