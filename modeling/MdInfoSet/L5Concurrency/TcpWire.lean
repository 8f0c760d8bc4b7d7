import MdInfoSet.L5Concurrency.TcpMessages

/-!
# What `TCPServer` puts on a connection

`send` queues a message for the connection it sees up, the send thread of that connection takes
it out and hands it to `::send` piece by piece (src/qx_commom/tcp_server.h:203-219,361-425); the
connection may be closed, the queue cleared or the server stopped at any moment.

**The wire** (`wire`). On runs where no message of an earlier connection gets into the queue
(`TcpMessages.Fresh`), what is put on a connection is the beginning of the messages queued for
it, one after another and each whole. While the connection is up, nothing of them is missing:
what is not on the wire yet is in the hands of the send thread or in the queue.

The send thread does not look at what `internal_send` returns, so behind a `::send` that has
failed it would go on with the next message. The result takes it that nothing gets through on
that connection any more (`FailsForGood`).
-/
namespace MdInfoSet.L5.TcpWire

open MdInfoSet.L5.TcpServer MdInfoSet.L5.TcpMessages

/-- The bytes a step puts on connection `conn`. -/
def sentOn (conn : Nat) (s : Sys) : Label → Option Bytes
  | .send k (.sent n) =>
    match s.send k with
    | .send msg totalSent => if s.clientFd = some conn then some ((msg.data.drop totalSent).take n) else none
    | _ => none
  | _ => none

/-- The message a step puts into the queue for connection `conn`. -/
def queuedFor (size conn : Nat) (s : Sys) : Label → Option Bytes
  | .enqueue i =>
    match s.call i with
    | .sending msg _ => if msg.conn = conn ∧ s.queue.length < size then some msg.data else none
    | _ => none
  | _ => none

/-- Behind a `::send` that has failed, send thread `k` gets nothing through. -/
def FailsForGood (k : Nat) : List Label → Prop
  | [] => True
  | l :: ls => (l = .send k .error → ∀ n, .send k (.sent n) ∉ ls) ∧ FailsForGood k ls

/-- What a send thread has taken from the queue and not put on the wire. -/
def inHand : SendPc → Bytes
  | .testFd msg => msg.data
  | .sendLoop msg totalSent | .sendLoopConnected msg totalSent | .send msg totalSent => msg.data.drop totalSent
  | .absent | .loop | .loopConnected | .lock | .wait | .waitConnected | .sleep | .check | .take | .done => []

/-- The last connection is down, and nothing will bring it up. -/
def Gone (s : Sys) : Prop := s.running = false ∨ s.connected = false ∧ s.accept ≠ .storeConnected

/-- Nothing more is taken from the queue for connection `conn`: it is gone, and its send thread
has not looked at `m_running` before. -/
def Lost (conn : Nat) (s : Sys) : Prop :=
  s.running = false ∧ s.send conn ≠ .take ∨ s.connected = false ∧ s.accept ≠ .storeConnected

/-- `m_running` has been stored. -/
def Stored : StopPc → Prop
  | .loadRunning | .storeRunning => False
  | _ => True

/-- What the threads do to the connection. -/
structure Flow (s : Sys) : Prop where
  fd : ∀ conn, s.clientFd = some conn → conn = s.conns
  closed : s.clientFd = none → Gone s
  storing : s.accept = .storeConnected → s.queue = [] ∧ ∀ i msg c, s.call i = .sending msg c → c ≠ s.clears
  closing : ∀ k pc, s.recv k = .closing pc → pc ≠ .storeConnected → s.connected = false
  recvStop : ∀ k pc, s.recv k = .stopping pc → Stored pc → s.running = false
  callStop : ∀ i pc, s.call i = .stopping pc → Stored pc → s.running = false
  live : ∀ k, s.send k ≠ .absent → s.send k ≠ .done → k = s.conns

/-- The messages queued for connection `conn`, between the wire, its send thread and the queue,
as long as no `::send` has `failed`. -/
structure Carried (conn : Nat) (queued sent : Bytes) (failed : Prop) (s : Sys) : Prop where
  later : s.conns < conn → queued = [] ∧ sent = []
  now : s.conns = conn → ¬ failed →
    sent ++ inHand (s.send conn) ++ (s.queue.map Msg.data).flatten = queued ∨
      Lost conn s ∧ sent ++ inHand (s.send conn) <+: queued
  sent : sent <+: queued

variable {s s' t : Sys} {size conn : Nat} {queued sent : Bytes} {failed : Prop}

theorem flow_start : Flow .start where
  fd := nofun
  closed _ := .inr ⟨rfl, nofun⟩
  storing := nofun
  closing := nofun
  recvStop := nofun
  callStop := nofun
  live _ h := absurd rfl h

theorem carried_start : Carried conn [] [] False .start where
  later _ := ⟨rfl, rfl⟩
  now _ _ := .inl rfl
  sent := List.prefix_rfl

/-- A step that neither queues nor transmits. -/
def Keeps (s s' : Sys) : Prop :=
  ∀ conn queued sent failed, Carried conn queued sent failed s → Carried conn queued sent failed s'

/-! ## Taking a connection down -/

/-- What `close_connection` and `stop` do: the socket is closed and the queue is cleared only
when the connection is gone. -/
structure Drops (s s' : Sys) : Prop extends Lowered s s' where
  clientFd' : s'.clientFd = s.clientFd ∨ s'.clientFd = none ∧ Gone s'
  queue' : s'.queue = s.queue ∧ s'.clears = s.clears ∨
    s'.queue = [] ∧ s'.clears = s.clears + 1 ∧ Gone s' ∧ s.queueLock = none

theorem Drops.running_false (h : Drops s s') (hr : s.running = false) : s'.running = false :=
  eq_false_of_ne_true fun ht => by rw [h.running ht] at hr; cases hr

theorem Drops.connected_false (h : Drops s s') (hc : s.connected = false) : s'.connected = false :=
  eq_false_of_ne_true fun ht => by rw [h.connected ht] at hc; cases hc

theorem Drops.gone (h : Drops s s') (hg : Gone s) : Gone s' :=
  hg.imp h.running_false fun hg => ⟨h.connected_false hg.1, h.accept ▸ hg.2⟩

theorem Drops.lost (h : Drops s s') (hg : Lost conn s) : Lost conn s' :=
  hg.imp (fun hg => ⟨h.running_false hg.1, h.send ▸ hg.2⟩) fun hg => ⟨h.connected_false hg.1, h.accept ▸ hg.2⟩

theorem Gone.lost (hg : Gone s) (hpc : s.send conn ≠ .take) : Lost conn s := hg.imp_left fun hr => ⟨hr, hpc⟩

theorem Lost.gone (hl : Lost conn s) : Gone s := hl.imp_left And.left

theorem Drops.flow (h : Drops s s') (hi : Inv s) (hf : Flow s) : Flow s' where
  fd conn hc := by
    rw [h.conns]
    rcases h.clientFd with he | he <;> rw [he] at hc
    · exact hf.fd conn hc
    · cases hc
  closed hc := by
    rcases h.clientFd' with he | ⟨-, hg⟩
    · exact h.gone (hf.closed (he ▸ hc))
    · exact hg
  storing ha := by
    rw [h.accept] at ha
    obtain ⟨hq, hcalls⟩ := hf.storing ha
    rw [h.call]
    rcases h.queue' with ⟨hq', hcl⟩ | ⟨hq', hcl, -, -⟩ <;> rw [hq', hcl]
    · exact ⟨hq, hcalls⟩
    · refine ⟨rfl, fun i msg c hc => ?_⟩
      have hle := (hi.calls i msg c hc).2.2.1
      omega
  closing k pc hk hpc := by
    rw [h.recv] at hk
    refine eq_false_of_ne_true fun ht => ?_
    have hdown := hf.closing k pc hk hpc
    rw [h.connected ht] at hdown
    cases hdown
  recvStop k pc hk hpc := by
    rw [h.recv] at hk
    refine eq_false_of_ne_true fun ht => ?_
    have hrun := hf.recvStop k pc hk hpc
    rw [h.running ht] at hrun
    cases hrun
  callStop i pc hi' hpc := by
    rw [h.call] at hi'
    refine eq_false_of_ne_true fun ht => ?_
    have hrun := hf.callStop i pc hi' hpc
    rw [h.running ht] at hrun
    cases hrun
  live k h1 h2 := by
    rw [h.send] at h1 h2
    rw [h.conns]
    exact hf.live k h1 h2

/-- The queue is cleared under its lock, and so not while the send thread is about to take. -/
theorem Drops.carried (h : Drops s s') (hi : Inv s) (hc : Carried conn queued sent failed s) :
    Carried conn queued sent failed s' where
  later := by rw [h.conns]; exact hc.later
  now hn hok := by
    rw [h.conns] at hn
    rw [h.send]
    rcases hc.now hn hok with he | ⟨hg, hp⟩
    · rcases h.queue' with ⟨hq, -⟩ | ⟨-, -, hg, hfree⟩
      · rw [hq]
        exact .inl he
      · refine .inr ⟨hg.lost fun ht => ?_, he ▸ List.prefix_append ..⟩
        have hlock := (hi.lock conn).mpr (by rw [← h.send, ht]; trivial)
        rw [hfree] at hlock
        cases hlock
    · exact .inr ⟨h.lost hg, hp⟩
  sent := hc.sent

/-- A join does not touch the connection. -/
structure Joined (s s' : Sys) : Prop where
  running : s'.running = s.running
  connected : s'.connected = s.connected
  clientFd : s'.clientFd = s.clientFd
  queue : s'.queue = s.queue
  clears : s'.clears = s.clears

theorem joinRecv_joined {self : Tid} (h : s.joinRecv self = some t) : Joined s t := by
  unfold Sys.joinRecv at h
  split at h
  · cases h
    exact ⟨rfl, rfl, rfl, rfl, rfl⟩
  · split at h
    · cases h
      exact ⟨rfl, rfl, rfl, rfl, rfl⟩
    · split at h <;> cases h
      exact ⟨rfl, rfl, rfl, rfl, rfl⟩

theorem joinSend_joined (h : s.joinSend = some t) : Joined s t := by
  unfold Sys.joinSend at h
  split at h
  · cases h
    exact ⟨rfl, rfl, rfl, rfl, rfl⟩
  · split at h <;> cases h
    exact ⟨rfl, rfl, rfl, rfl, rfl⟩

theorem Joined.drops (h : Joined s s') (hl : Lowered s s') : Drops s s' :=
  { hl with
    clientFd' := .inl h.clientFd
    queue' := .inl ⟨h.queue, h.clears⟩ }

theorem clearQueue_drops (h : s.clearQueue = some t) (hg : Gone s) :
    Drops s t ∧ t.running = s.running ∧ t.connected = s.connected := by
  have hl := (clearQueue_cases h).1
  unfold Sys.clearQueue at h
  split at h <;> cases h
  exact ⟨{ hl with clientFd' := .inl rfl, queue' := .inr ⟨rfl, rfl, hg, ‹_›⟩ }, rfl, rfl⟩

theorem closeStep_drops {self : Tid} {pc : ClosePc} {next : Option ClosePc} (h : s.closeStep self pc = some (t, next))
    (hdown : pc ≠ .storeConnected → s.connected = false) (ha : s.accept ≠ .storeConnected) :
    Drops s t ∧ t.connected = false := by
  have hl := (closeStep_cases h).1
  cases pc with
  | storeConnected =>
    cases h
    exact ⟨{ hl with clientFd' := .inl rfl, queue' := .inl ⟨rfl, rfl⟩ }, rfl⟩
  | closeClient =>
    have hd := hdown nofun
    cases h
    exact ⟨{ hl with clientFd' := .inr ⟨rfl, .inr ⟨hd, ha⟩⟩, queue' := .inl ⟨rfl, rfl⟩ }, hd⟩
  | joinRecv =>
    obtain ⟨u, hu, hr⟩ := Option.map_eq_some_iff.mp h
    cases hr
    have hj := joinRecv_joined hu
    exact ⟨hj.drops hl, hj.connected.trans (hdown nofun)⟩
  | joinSend =>
    obtain ⟨u, hu, hr⟩ := Option.map_eq_some_iff.mp h
    cases hr
    have hj := joinSend_joined hu
    exact ⟨hj.drops hl, hj.connected.trans (hdown nofun)⟩
  | clearQueue =>
    obtain ⟨u, hu, hr⟩ := Option.map_eq_some_iff.mp h
    cases hr
    have hd := hdown nofun
    obtain ⟨hdrops, -, hconn⟩ := clearQueue_drops hu (.inr ⟨hd, ha⟩)
    exact ⟨hdrops, hconn.trans hd⟩

theorem stopStep_drops {self : Tid} {pc : StopPc} {next : Option StopPc} (h : s.stopStep self pc = some (t, next))
    (hdown : Stored pc → s.running = false) : Drops s t ∧ ∀ q, next = some q → Stored q → t.running = false := by
  have hl := (stopStep_cases h).1
  cases pc with
  | loadRunning =>
    cases h
    refine ⟨{ hl with clientFd' := .inl rfl, queue' := .inl ⟨rfl, rfl⟩ }, fun q hq hstored => ?_⟩
    split at hq <;> cases hq
    exact hstored.elim
  | storeRunning =>
    cases h
    exact ⟨{ hl with clientFd' := .inl rfl, queue' := .inl ⟨rfl, rfl⟩ }, fun _ _ _ => rfl⟩
  | storeConnected | notifyAll | closeServer =>
    have hd := hdown trivial
    cases h
    exact ⟨{ hl with clientFd' := .inl rfl, queue' := .inl ⟨rfl, rfl⟩ }, fun _ _ _ => hd⟩
  | closeClient =>
    have hd := hdown trivial
    cases h
    exact ⟨{ hl with clientFd' := .inr ⟨rfl, .inl hd⟩, queue' := .inl ⟨rfl, rfl⟩ }, fun _ _ _ => hd⟩
  | joinAccept =>
    have hd := hdown trivial
    simp only [Sys.stopStep] at h
    split at h
    · split at h <;> cases h
      exact ⟨{ hl with clientFd' := .inl rfl, queue' := .inl ⟨rfl, rfl⟩ }, fun _ _ _ => hd⟩
    · cases h
      exact ⟨{ hl with clientFd' := .inl rfl, queue' := .inl ⟨rfl, rfl⟩ }, fun _ _ _ => hd⟩
  | joinRecv =>
    obtain ⟨u, hu, hr⟩ := Option.map_eq_some_iff.mp h
    cases hr
    have hj := joinRecv_joined hu
    exact ⟨hj.drops hl, fun _ _ _ => hj.running.trans (hdown trivial)⟩
  | joinSend =>
    obtain ⟨u, hu, hr⟩ := Option.map_eq_some_iff.mp h
    cases hr
    have hj := joinSend_joined hu
    exact ⟨hj.drops hl, fun _ _ _ => hj.running.trans (hdown trivial)⟩
  | clearQueue =>
    obtain ⟨u, hu, hr⟩ := Option.map_eq_some_iff.mp h
    cases hr
    have hd := hdown trivial
    obtain ⟨hdrops, hrun, -⟩ := clearQueue_drops hu (.inl hd)
    exact ⟨hdrops, fun _ _ _ => hrun.trans hd⟩

theorem Drops.refl (s : Sys) : Drops s s :=
  Joined.drops ⟨rfl, rfl, rfl, rfl, rfl⟩ (Lowered.refl s)

/-- No receive thread runs while the next client is being assigned. -/
theorem not_storing_of_recv (hi : Inv s) {k : Nat} (h1 : s.recv k ≠ .absent) (h2 : s.recv k ≠ .done) :
    s.accept ≠ .storeConnected := by
  intro ha
  have hhandles := hi.handles
  rw [ha] at hhandles
  exact absurd (hi.recv_idle (by simp [ha]) (by simp [ha]) hhandles.1 k) (not_or.mpr ⟨h1, h2⟩)

theorem inHand_idle {pc : SendPc} (h : pc = .absent ∨ pc = .done) : inHand pc = [] := by
  rcases h with rfl | rfl <;> rfl

/-! ## The receive threads and `stop` -/

theorem Flow.setRecv (hf : Flow s) {k : Nat} {pc : RecvPc}
    (hclose : ∀ q, pc = .closing q → q ≠ .storeConnected → s.connected = false)
    (hstop : ∀ q, pc = .stopping q → Stored q → s.running = false) : Flow (s.setRecv k pc) :=
  { hf with
    closing := fun j q hj => by
      simp only [Sys.setRecv] at hj ⊢
      by_cases hjk : j = k
      · subst hjk
        rw [Function.update_self] at hj
        exact hclose q hj
      · rw [Function.update_of_ne hjk] at hj
        exact hf.closing j q hj
    recvStop := fun j q hj => by
      simp only [Sys.setRecv] at hj ⊢
      by_cases hjk : j = k
      · subst hjk
        rw [Function.update_self] at hj
        exact hstop q hj
      · rw [Function.update_of_ne hjk] at hj
        exact hf.recvStop j q hj }

theorem Flow.setSend (hf : Flow s) {k : Nat} (pc : SendPc) (hk : k = s.conns) : Flow (s.setSend k pc) :=
  { hf with
    live := fun j h1 h2 => by
      simp only [Sys.setSend] at h1 h2 ⊢
      by_cases hjk : j = k
      · exact hjk.trans hk
      · rw [Function.update_of_ne hjk] at h1 h2
        exact hf.live j h1 h2 }

/-- A send thread moves on with what it has in its hands; it comes to taking the head of the
queue only if it saw the server run. -/
theorem Carried.setSend (hc : Carried conn queued sent failed s) {k : Nat} (pc : SendPc)
    (hpc : inHand pc = inHand (s.send k)) (htake : pc = .take → s.running = true) :
    Carried conn queued sent failed (s.setSend k pc) := by
  by_cases hk : conn = k
  · subst hk
    have hself : (s.setSend conn pc).send conn = pc := Function.update_self ..
    refine { hc with now := fun hn hok => ?_ }
    rw [hself, hpc]
    refine (hc.now hn hok).imp_right fun h => ⟨h.1.imp_left fun hg => ⟨hg.1, fun ht => ?_⟩, h.2⟩
    rw [hself] at ht
    rw [htake ht] at hg
    cases hg.1
  · have hsame : (s.setSend k pc).send conn = s.send conn := Function.update_of_ne hk ..
    refine { hc with now := fun hn hok => ?_ }
    rw [Lost, hsame]
    exact hc.now hn hok

/-- Nor does it matter who sleeps and who holds the lock. -/
theorem Carried.setLock (hc : Carried conn queued sent failed s) (queueLock : Option Nat) (sleepers : List Nat) :
    Carried conn queued sent failed { s with queueLock := queueLock, sleepers := sleepers } := { hc with }

theorem Flow.setLock (hf : Flow s) (queueLock : Option Nat) (sleepers : List Nat) :
    Flow { s with queueLock := queueLock, sleepers := sleepers } := { hf with }

theorem Flow.setCall (hf : Flow s) {i : Nat} {pc : CallPc}
    (hmsg : s.accept = .storeConnected → ∀ msg c, pc = .sending msg c → c ≠ s.clears)
    (hstop : ∀ q, pc = .stopping q → Stored q → s.running = false) : Flow (s.setCall i pc) :=
  { hf with
    storing := fun ha => ⟨(hf.storing ha).1, fun j msg c hj => by
      simp only [Sys.setCall] at hj ⊢
      by_cases hji : j = i
      · subst hji
        rw [Function.update_self] at hj
        exact hmsg ha msg c hj
      · rw [Function.update_of_ne hji] at hj
        exact (hf.storing ha).2 j msg c hj⟩
    callStop := fun j q hj => by
      simp only [Sys.setCall] at hj ⊢
      by_cases hji : j = i
      · subst hji
        rw [Function.update_self] at hj
        exact hstop q hj
      · rw [Function.update_of_ne hji] at hj
        exact hf.callStop j q hj }

/-- A receive thread moves on, and takes the connection down where it is in one of the two
functions. -/
theorem recvStep_drops (hi : Inv s) (hf : Flow s) {k : Nat} {out : RecvOut} (h : s.recvStep k out = some s') :
    ∃ t pc, s' = t.setRecv k pc ∧ Drops s t ∧ (∀ q, pc = .closing q → q ≠ .storeConnected → t.connected = false) ∧
      ∀ q, pc = .stopping q → Stored q → t.running = false := by
  have hkeep : ∀ pc, s' = s.setRecv k pc → (∀ q, pc = .closing q → q = .storeConnected) →
      (∀ q, pc ≠ .stopping q) → ∃ t pc, s' = t.setRecv k pc ∧ Drops s t ∧
        (∀ q, pc = .closing q → q ≠ .storeConnected → t.connected = false) ∧
        ∀ q, pc = .stopping q → Stored q → t.running = false := fun pc hs' hclose hstop =>
    ⟨s, pc, hs', Drops.refl s, fun q hq hne => absurd (hclose q hq) hne, fun q hq => absurd hq (hstop q)⟩
  unfold Sys.recvStep at h
  cases hpc : s.recv k with
  | absent | done =>
    simp only [hpc] at h
    cases h
  | loop | loopConnected | callback =>
    simp only [hpc, Option.some.injEq] at h
    refine hkeep _ h.symm ?_ ?_ <;> (try split) <;> nofun
  | testFd =>
    simp only [hpc, Option.some.injEq] at h
    refine hkeep _ h.symm ?_ ?_ <;> cases s.clientFd <;> nofun
  | recv conn =>
    simp only [hpc] at h
    cases out with
    | data | again =>
      simp only [Option.ite_none_left_eq_some, Option.some.injEq] at h
      exact hkeep _ h.2.symm (fun _ hq => by cases hq) (fun _ hq => by cases hq)
    | zero | error =>
      exact hkeep _ (Option.some.inj h).symm (fun _ hq => by cases hq; rfl) (fun _ hq => by cases hq)
  | closing pc =>
    simp only [hpc] at h
    obtain ⟨⟨t, next⟩, ht, rfl⟩ := Option.map_eq_some_iff.mp h
    have ha := not_storing_of_recv hi (k := k) (by simp [hpc]) (by simp [hpc])
    obtain ⟨hd, hdown⟩ := closeStep_drops ht (hf.closing k pc hpc) ha
    refine ⟨t, _, rfl, hd, fun _ _ _ => hdown, fun q hq => ?_⟩
    cases next <;> cases hq
  | stopping pc =>
    simp only [hpc] at h
    obtain ⟨⟨t, next⟩, ht, rfl⟩ := Option.map_eq_some_iff.mp h
    obtain ⟨hd, hdown⟩ := stopStep_drops ht (hf.recvStop k pc hpc)
    refine ⟨t, _, rfl, hd, fun q hq => ?_, fun q hq => ?_⟩
    · cases next <;> cases hq
    · cases next <;> cases hq
      exact hdown q rfl

theorem callStop_drops (hf : Flow s) {i : Nat} (h : s.callStop i = some s') :
    ∃ t pc, s' = t.setCall i pc ∧ Drops s t ∧ (∀ msg c, pc ≠ .sending msg c) ∧
      ∀ q, pc = .stopping q → Stored q → t.running = false := by
  unfold Sys.callStop at h
  cases hpc : s.call i with
  | idle =>
    simp only [hpc, Option.some.injEq] at h
    exact ⟨s, _, h.symm, Drops.refl s, nofun, fun q hq hstored => by cases hq; exact hstored.elim⟩
  | sending msg c | notifying =>
    simp only [hpc] at h
    cases h
  | stopping pc =>
    simp only [hpc] at h
    obtain ⟨⟨t, next⟩, ht, rfl⟩ := Option.map_eq_some_iff.mp h
    obtain ⟨hd, hdown⟩ := stopStep_drops ht (hf.callStop i pc hpc)
    refine ⟨t, _, rfl, hd, fun msg c => by cases next <;> nofun, fun q hq => ?_⟩
    cases next <;> cases hq
    exact hdown q rfl

/-! ## The accept thread -/

theorem Flow.setAccept (hf : Flow s) (pc : AcceptPc) (hpc : pc ≠ .storeConnected) : Flow { s with accept := pc } :=
  { hf with
    closed := fun hc => (hf.closed hc).imp_right fun h => ⟨h.1, hpc⟩
    storing := fun ha => absurd ha hpc }

theorem Carried.setAccept (hc : Carried conn queued sent failed s) (pc : AcceptPc) (hpc : pc ≠ .storeConnected) :
    Carried conn queued sent failed { s with accept := pc } :=
  { hc with now := fun hn hok => (hc.now hn hok).imp_right fun h => ⟨h.1.imp_right fun h => ⟨h.1, hpc⟩, h.2⟩ }

/-- `close_connection` on the accept thread. -/
theorem closing_drops (hi : Inv s) {out : AcceptOut} {pc : ClosePc} (hpc : s.accept = .closing pc)
    (h : s.acceptStep out = some s') :
    ∃ t, s' = { t with accept := pc.next.elim .storeFd .closing } ∧ Drops s t := by
  simp only [Sys.acceptStep, hpc] at h
  obtain ⟨⟨t, next⟩, ht, rfl⟩ := Option.map_eq_some_iff.mp h
  have hpoint := hi.point
  rw [hpc] at hpoint
  obtain ⟨-, rfl, -⟩ := closeStep_cases ht
  refine ⟨t, rfl, (closeStep_drops ht (fun hne => ?_) (by simp [hpc])).1⟩
  cases pc with
  | storeConnected => exact absurd rfl hne
  | closeClient | joinRecv => exact hpoint.1
  | joinSend | clearQueue => exact hpoint

theorem accept_step (hi : Inv s) (hf : Flow s) {out : AcceptOut} (hs : s.acceptStep out = some s') :
    Flow s' ∧ Keeps s s' := by
  have hhandles := hi.handles
  cases hpc : s.accept with
  | done =>
    simp only [Sys.acceptStep, hpc] at hs
    cases hs
  | loop | poll =>
    obtain ⟨pc, rfl, hnext⟩ := waiting_cases (by simp [hpc]) hs
    have hne : pc ≠ .storeConnected := by rcases hnext with rfl | rfl | rfl | rfl <;> simp
    exact ⟨hf.setAccept _ hne, fun _ _ _ _ hc => hc.setAccept _ hne⟩
  | test =>
    simp only [Sys.acceptStep, hpc, Option.some.injEq] at hs
    have hne : (if s.connected then AcceptPc.closing .storeConnected else .storeFd) ≠ .storeConnected := by
      split <;> simp
    exact hs ▸ ⟨hf.setAccept _ hne, fun _ _ _ _ hc => hc.setAccept _ hne⟩
  | closing pc =>
    obtain ⟨t, rfl, hd⟩ := closing_drops hi hpc hs
    have hne : (pc.next.elim .storeFd .closing : AcceptPc) ≠ .storeConnected := by cases pc <;> simp [ClosePc.next]
    exact ⟨(hd.flow hi hf).setAccept _ hne, fun _ _ _ _ hc => (hd.carried hi hc).setAccept _ hne⟩
  | storeFd =>
    rw [hpc] at hhandles
    have hqueue := hi.storing hpc
    simp only [Sys.acceptStep, hpc] at hs
    cases hs
    have hidle := hi.send_idle (by simp [hpc]) (by simp [hpc]) hhandles.2
    refine ⟨{ hf with fd := ?_, closed := fun hc => (by cases hc), storing := fun _ => ⟨hqueue, ?_⟩, live := ?_ },
      fun conn _ _ _ hc => ⟨?_, ?_, hc.sent⟩⟩
    · intro conn hconn
      cases hconn
      rfl
    · intro i msg c hcall he
      exact ((hi.calls i msg c hcall).2.2.2 he).2 hpc
    · intro k h1 h2
      exact absurd (hidle k) (not_or.mpr ⟨h1, h2⟩)
    · intro hlt
      exact hc.later (Nat.lt_of_succ_lt hlt)
    · intro hn _
      obtain ⟨rfl, rfl⟩ := hc.later (Nat.lt_of_lt_of_eq (Nat.lt_succ_self _) hn)
      simp [inHand_idle (hidle conn), hqueue]
  | storeConnected =>
    simp only [Sys.acceptStep, hpc] at hs
    cases hs
    have hrun : Gone s → s.running = false := fun hg => hg.resolve_right fun h => h.2 hpc
    refine ⟨{ hf with
      closed := fun hc => .inl (hrun (hf.closed hc)), storing := fun hc => (by cases hc), closing := ?_ },
      fun _ _ _ _ hc => { hc with now := ?_ }⟩
    · intro k pc (hk : s.recv k = .closing pc) _
      exact absurd hpc (not_storing_of_recv hi (k := k) (by simp [hk]) (by simp [hk]))
    · intro hn hok
      exact (hc.now hn hok).imp_right fun h => ⟨.inl (h.1.resolve_right fun h => h.2 hpc), h.2⟩
  | spawnRecv =>
    simp only [Sys.acceptStep, hpc] at hs
    cases hs
    have hset : Flow (s.setRecv s.conns .loop) := hf.setRecv (fun _ hc => by cases hc) (fun _ hc => by cases hc)
    refine ⟨hset.setAccept .assignRecv (by simp), fun conn queued sent failed hc => ?_⟩
    have hsame : Carried conn queued sent failed (s.setRecv s.conns .loop) := { hc with }
    exact hsame.setAccept .assignRecv (by simp)
  | assignRecv =>
    rw [hpc] at hhandles
    simp only [Sys.acceptStep, hpc, if_pos hhandles.1] at hs
    cases hs
    have hset : Flow { s with recvHandle := some s.conns } := { hf with }
    refine ⟨hset.setAccept .spawnSend (by simp), fun conn queued sent failed hc => ?_⟩
    have hsame : Carried conn queued sent failed { s with recvHandle := some s.conns } := { hc with }
    exact hsame.setAccept .spawnSend (by simp)
  | spawnSend =>
    rw [hpc] at hhandles
    have hidle := hi.send_idle (by simp [hpc]) (by simp [hpc]) hhandles
    simp only [Sys.acceptStep, hpc] at hs
    cases hs
    refine ⟨(hf.setSend .loop rfl).setAccept .assignSend (by simp), fun _ _ _ _ hc => ?_⟩
    exact (hc.setSend .loop (inHand_idle (hidle s.conns)).symm (by simp)).setAccept .assignSend (by simp)
  | assignSend =>
    rw [hpc] at hhandles
    have hnone : s.sendHandle = none := hhandles
    simp only [Sys.acceptStep, hpc, if_pos hnone] at hs
    cases hs
    have hset : Flow { s with sendHandle := some s.conns } := { hf with }
    refine ⟨hset.setAccept .loop (by simp), fun conn queued sent failed hc => ?_⟩
    have hsame : Carried conn queued sent failed { s with sendHandle := some s.conns } := { hc with }
    exact hsame.setAccept .loop (by simp)

/-! ## The send thread -/

/-- A send thread drops what it has in its hands only when the connection is gone. -/
theorem Carried.drop (hc : Carried conn queued sent failed s) {k : Nat} (pc : SendPc) (hk : k = s.conns)
    (hpc : inHand pc = []) (htake : pc ≠ .take) (hg : Gone s) : Carried conn queued sent failed (s.setSend k pc) := by
  refine { hc with now := fun hn hok => ?_ }
  have hself : (s.setSend k pc).send conn = pc := by
    rw [hk, ← hn]
    exact Function.update_self ..
  refine .inr ⟨hg.imp_left fun hr => ⟨hr, fun ht => htake (hself.symm.trans ht)⟩, ?_⟩
  rw [hself, hpc, List.append_nil]
  exact hc.sent

theorem Carried.weaken {failed' : Prop} (hc : Carried conn queued sent failed s) (h : failed → failed') :
    Carried conn queued sent failed' s :=
  { hc with now := fun hn hok => hc.now hn (mt h hok) }

theorem Gone.not_up (hg : Gone s) (h : s.running ∧ s.connected) : False := by
  rcases hg with hr | hc
  · rw [hr] at h
    cases h.1
  · rw [hc.1] at h
    cases h.2

/-- A send thread that does not transmit. -/
theorem send_silent (hi : Inv s) (hf : Flow s) {k : Nat} {out : SendOut} (hs : s.sendStep k out = some s')
    (hsilent : ∀ msg n, s.send k ≠ .send msg n) :
    Flow s' ∧ Keeps s s' := by
  obtain ⟨_, _, _, _, _, hm, _⟩ := sendStep_cases hs
  have h1 := hm.started
  have h2 := hm.running
  have hk := hf.live k h1 h2
  have hstoring : s.accept ≠ .storeConnected := fun ha => by
    have hhandles := hi.handles
    rw [ha] at hhandles
    exact not_or.mpr ⟨h1, h2⟩ (hi.send_idle (by simp [ha]) (by simp [ha]) hhandles.2 k)
  unfold Sys.sendStep at hs
  rw [if_neg hm.awake] at hs
  cases hpc : s.send k with
  | absent => exact absurd hpc h1
  | done => exact absurd hpc h2
  | loop | loopConnected | wait | waitConnected =>
    simp only [hpc, Option.some.injEq] at hs
    refine hs ▸ ⟨hf.setSend _ hk, fun _ _ _ _ hc => hc.setSend _ ?_ ?_⟩
    · rw [hpc]
      split <;> rfl
    · split <;> nofun
  | lock =>
    simp only [hpc, Option.ite_none_right_eq_some, Option.some.injEq] at hs
    obtain ⟨-, rfl⟩ := hs
    have hset : Flow (s.setSend k .wait) := hf.setSend _ hk
    exact ⟨hset.setLock _ _, fun _ _ _ _ hc => (hc.setSend .wait (by rw [hpc]; rfl) nofun).setLock _ _⟩
  | sleep =>
    simp only [hpc, Option.some.injEq] at hs
    subst hs
    have hset : Flow (s.setSend k .lock) := hf.setSend _ hk
    exact ⟨hset.setLock _ _, fun _ _ _ _ hc => (hc.setSend .lock (by rw [hpc]; rfl) nofun).setLock _ _⟩
  | check =>
    simp only [hpc, Option.some.injEq] at hs
    subst hs
    split
    · exact ⟨hf.setSend _ hk, fun _ _ _ _ hc => hc.setSend _ (by rw [hpc]; rfl) fun _ => ‹_›⟩
    · have hset : Flow (s.setSend k .done) := hf.setSend _ hk
      exact ⟨hset.setLock _ _, fun _ _ _ _ hc => (hc.setSend .done (by rw [hpc]; rfl) nofun).setLock _ _⟩
  | take =>
    simp only [hpc] at hs
    split at hs
    · rename_i hup
      cases hq : s.queue with
      | nil =>
        simp only [hq, Option.some.injEq] at hs
        subst hs
        have hset : Flow (s.setSend k .loop) := hf.setSend _ hk
        exact ⟨hset.setLock _ _, fun _ _ _ _ hc => (hc.setSend .loop (by rw [hpc]; rfl) nofun).setLock _ _⟩
      | cons msg queue =>
        simp only [hq, Option.some.injEq] at hs
        subst hs
        have hset : Flow (s.setSend k (.testFd msg)) := hf.setSend _ hk
        refine ⟨{ hset with storing := fun ha => absurd ha hstoring }, fun conn queued sent _ hc => { hc with
          now := fun hn hok => .inl ?_ }⟩
        have hconn : conn = k := (show s.conns = conn from hn).symm.trans hk.symm
        subst hconn
        -- Nothing of this connection was dropped before.
        have hcarried := (hc.now hn hok).resolve_right fun h => by
          rcases h.1 with ⟨-, ht⟩ | ⟨hdown, -⟩
          · exact ht hpc
          · rw [hup] at hdown
            cases hdown
        show sent ++ inHand (Function.update s.send conn (.testFd msg) conn) ++ (queue.map Msg.data).flatten = queued
        rw [hpc, hq] at hcarried
        rw [Function.update_self, ← hcarried]
        simp [inHand]
    · cases hs
      have hset : Flow (s.setSend k .done) := hf.setSend _ hk
      exact ⟨hset.setLock _ _, fun _ _ _ _ hc => (hc.setSend .done (by rw [hpc]; rfl) nofun).setLock _ _⟩
  | testFd msg =>
    simp only [hpc, Option.some.injEq] at hs
    subst hs
    refine ⟨hf.setSend _ hk, fun _ _ _ _ hc => ?_⟩
    split
    · exact hc.drop .loop hk rfl nofun (hf.closed ‹_›)
    · exact hc.setSend _ (by rw [hpc]; rfl) nofun
  | sendLoop msg n =>
    simp only [hpc, Option.some.injEq] at hs
    subst hs
    refine ⟨hf.setSend _ hk, fun _ _ _ _ hc => ?_⟩
    split
    · exact hc.setSend _ (by rw [hpc]; rfl) nofun
    · rename_i hnot
      by_cases hlt : n < msg.data.length
      · exact hc.drop .loop hk rfl nofun (.inl (eq_false_of_ne_true fun hr => hnot ⟨hlt, hr⟩))
      · refine hc.setSend _ ?_ nofun
        rw [hpc, inHand, inHand, List.drop_eq_nil_of_le (Nat.le_of_not_lt hlt)]
  | sendLoopConnected msg n =>
    simp only [hpc, Option.some.injEq] at hs
    subst hs
    refine ⟨hf.setSend _ hk, fun _ _ _ _ hc => ?_⟩
    split
    · exact hc.setSend _ (by rw [hpc]; rfl) nofun
    · exact hc.drop .loop hk rfl nofun (.inr ⟨eq_false_of_ne_true ‹_›, hstoring⟩)
  | send msg n => exact absurd hpc (hsilent msg n)

theorem send_step (hi : Inv s) (hf : Flow s) {k : Nat} {out : SendOut} (hs : s.sendStep k out = some s')
    (hfail : failed → ∀ n, Label.send k out ≠ .send conn (.sent n)) :
    Flow s' ∧ ∀ queued sent, Carried conn queued sent failed s →
      Carried conn queued (sent ++ (sentOn conn s (.send k out)).toList.flatten)
        (failed ∨ Label.send k out = .send conn .error) s' := by
  by_cases hsilent : ∀ msg n, s.send k ≠ .send msg n
  · have hnone : sentOn conn s (.send k out) = none := by
      cases out with
      | again | error => rfl
      | sent n =>
        cases hpc : s.send k with
        | send msg totalSent => exact absurd hpc (hsilent msg totalSent)
        | _ => simp [sentOn, hpc]
    obtain ⟨hflow, hkeeps⟩ := send_silent hi hf hs hsilent
    refine ⟨hflow, fun _ _ hc => ?_⟩
    rw [hnone, Option.toList_none, List.flatten_nil, List.append_nil]
    exact (hkeeps _ _ _ _ hc).weaken .inl
  · have hpc : ∃ msg n, s.send k = .send msg n := by simpa using hsilent
    obtain ⟨msg, n, hpc⟩ := hpc
    have hk := hf.live k (by simp [hpc]) (by simp [hpc])
    obtain ⟨_, _, _, _, _, hm, _⟩ := sendStep_cases hs
    simp only [Sys.sendStep, if_neg hm.awake, hpc] at hs
    cases out with
    | again =>
      cases hs
      refine ⟨hf.setSend _ hk, fun _ _ hc => ?_⟩
      have hsame := hc.setSend (k := k) (.sendLoop msg n) (by rw [hpc]; rfl) nofun
      simpa [sentOn] using hsame
    | error =>
      cases hs
      refine ⟨hf.setSend _ hk, fun _ _ hc => ?_⟩
      rw [show sentOn conn s (.send k .error) = none from rfl, Option.toList_none, List.flatten_nil, List.append_nil]
      exact { hc with now := fun hn hok => absurd (.inr (by rw [hk, show s.conns = conn from hn])) hok }
    | sent c =>
      obtain ⟨up, hup, hs⟩ := Option.bind_eq_some_iff.mp hs
      simp only [Option.ite_none_right_eq_some, Option.some.injEq] at hs
      obtain ⟨-, rfl⟩ := hs
      have hset : Flow (s.setSend k (.sendLoop msg (n + c))) := hf.setSend _ hk
      refine ⟨{ hset with }, fun queued sent hc => ?_⟩
      have hfd := hf.fd up hup
      by_cases hn : s.conns = conn
      · have hbytes : sentOn conn s (.send k (.sent c)) = some ((msg.data.drop n).take c) := by
          simp [sentOn, hpc, hup, hfd, hn]
        have hconn : conn = k := hn.symm.trans hk.symm
        subst hconn
        have hfailed : ¬ failed := fun hf' => hfail hf' c rfl
        have hrest : (msg.data.drop n).take c ++ msg.data.drop (n + c) = msg.data.drop n := by
          rw [← List.drop_drop, List.take_append_drop]
        have hnow := hc.now hn hfailed
        rw [hpc] at hnow
        simp only [inHand] at hnow
        rw [hbytes, Option.toList_some, List.flatten_singleton]
        have hself : Function.update s.send conn (.sendLoop msg (n + c)) conn = .sendLoop msg (n + c) :=
          Function.update_self ..
        refine ⟨fun hlt => absurd hn (Nat.ne_of_lt hlt), fun _ _ => hnow.imp (fun he => ?_) fun h =>
          ⟨h.1.imp_left fun hr => ⟨hr.1, ?_⟩, ?_⟩, ?_⟩
        · show sent ++ (msg.data.drop n).take c ++ inHand (Function.update s.send conn (.sendLoop msg (n + c)) conn) ++
            (s.queue.map Msg.data).flatten = queued
          rw [hself, inHand, List.append_assoc sent, hrest]
          exact he
        · show sent ++ (msg.data.drop n).take c ++
            inHand (Function.update s.send conn (.sendLoop msg (n + c)) conn) <+: queued
          rw [hself, inHand, List.append_assoc sent, hrest]
          exact h.2
        · have hprefix : sent ++ msg.data.drop n <+: queued := by
            rcases hnow with he | ⟨-, hp⟩
            · exact he ▸ List.prefix_append ..
            · exact hp
          rw [← hrest, ← List.append_assoc] at hprefix
          exact (List.prefix_append ..).trans hprefix
        · show Function.update s.send conn (.sendLoop msg (n + c)) conn ≠ .take
          rw [hself]
          nofun
      · have hnone : sentOn conn s (.send k (.sent c)) = none := by
          simp [sentOn, hpc, hup, hfd, hn]
        rw [hnone, Option.toList_none, List.flatten_nil, List.append_nil]
        exact { hc with now := fun hn' => absurd hn' hn }

/-! ## Runs -/

/-- `send` puts its message behind what is in the queue. -/
theorem enqueue_step (hi : Inv s) (hf : Flow s) {i : Nat} (hok : Fresh size s (.enqueue i))
    (hs : s.enqueue size i = some s') :
    Flow s' ∧ ∀ conn queued sent failed, Carried conn queued sent failed s →
      Carried conn (queued ++ (queuedFor size conn s (.enqueue i)).toList.flatten) sent failed s' := by
  obtain ⟨msg, c, hpc, -, ⟨hfull, rfl⟩ | ⟨hroom, rfl⟩⟩ := enqueue_cases hs
  · refine ⟨hf.setCall (fun _ _ _ hc => by cases hc) (fun _ hc => by cases hc), fun conn _ _ _ hc => ?_⟩
    have hnone : queuedFor size conn s (.enqueue i) = none := by simp [queuedFor, hpc, Nat.not_lt.mpr hfull]
    rw [hnone, Option.toList_none, List.flatten_nil, List.append_nil]
    exact { hc with }
  · have hfresh : c = s.clears := by
      have h : FreshAt s.clears (s.call i) := hok hroom
      rwa [hpc] at h
    have hconn := ((hi.calls i msg c hpc).2.2.2 hfresh).1
    have hset : Flow (s.setCall i .notifying) :=
      hf.setCall (fun _ _ _ hc => by cases hc) (fun _ hc => by cases hc)
    refine ⟨{ hset with storing := fun ha => absurd hfresh ((hf.storing ha).2 i msg c hpc) },
      fun conn _ _ _ hc => ?_⟩
    by_cases hn : s.conns = conn
    · have hdata : queuedFor size conn s (.enqueue i) = some msg.data := by simp [queuedFor, hpc, hconn, hn, hroom]
      rw [hdata, Option.toList_some, List.flatten_singleton]
      refine ⟨fun hlt => absurd hn (Nat.ne_of_lt hlt), fun _ hnot => ?_, hc.sent.trans (List.prefix_append ..)⟩
      refine (hc.now hn hnot).imp (fun he => ?_) fun h => ⟨h.1, h.2.trans (List.prefix_append ..)⟩
      rw [List.map_append, List.flatten_append, ← List.append_assoc, ← he]
      simp [Sys.setCall]
    · have hnone : queuedFor size conn s (.enqueue i) = none := by simp [queuedFor, hpc, hconn, hn]
      rw [hnone, Option.toList_none, List.flatten_nil, List.append_nil]
      exact { hc with now := fun hn' => absurd hn' hn }

theorem callSend_step (hi : Inv s) (hf : Flow s) {i : Nat} {data : Bytes} (hs : s.callSend i data = some s') :
    Flow s' ∧ Keeps s s' := by
  rcases callSend_cases hs with rfl | ⟨hup, rfl⟩
  · exact ⟨hf, fun _ _ _ _ hc => hc⟩
  · refine ⟨hf.setCall (fun ha => ?_) (fun _ hc => by cases hc), fun _ _ _ _ hc => { hc with }⟩
    have hpoint := hi.point
    rw [ha] at hpoint
    rw [hpoint.1] at hup
    cases hup

/-- A step of the server, as seen from one connection. -/
theorem step_carried (hi : Inv s) (hf : Flow s) {l : Label} (hok : Fresh size s l)
    (hfail : failed → ∀ n, l ≠ .send conn (.sent n)) (hs : (machine size).step s l = some s') :
    Flow s' ∧ ∀ queued sent, Carried conn queued sent failed s →
      Carried conn (queued ++ (queuedFor size conn s l).toList.flatten)
        (sent ++ (sentOn conn s l).toList.flatten) (failed ∨ l = .send conn .error) s' := by
  simp only [machine, Sys.step] at hs
  split at hs
  · cases l with
    | accept out =>
      obtain ⟨hflow, hkeeps⟩ := accept_step hi hf hs
      exact ⟨hflow, fun queued sent hc => by simpa [queuedFor, sentOn] using hkeeps _ _ _ _ hc⟩
    | recv k out =>
      obtain ⟨t, pc, rfl, hd, hclose, hstop⟩ := recvStep_drops hi hf hs
      refine ⟨(hd.flow hi hf).setRecv hclose hstop, fun queued sent hc => ?_⟩
      have hsame : Carried conn queued sent failed (t.setRecv k pc) := { hd.carried hi hc with }
      simpa [queuedFor, sentOn] using hsame
    | callbackStop k =>
      obtain ⟨-, rfl⟩ := callbackStop_cases hs
      refine ⟨hf.setRecv (fun _ hc => by cases hc) fun q hq hstored => by cases hq; exact hstored.elim,
        fun queued sent hc => ?_⟩
      have hsame : Carried conn queued sent failed (s.setRecv k (.stopping .loadRunning)) := { hc with }
      simpa [queuedFor, sentOn] using hsame
    | send k out =>
      obtain ⟨hflow, hcarried⟩ := send_step hi hf hs hfail
      exact ⟨hflow, fun queued sent hc => by simpa [queuedFor] using hcarried _ _ hc⟩
    | callSend i data =>
      obtain ⟨hflow, hcarried⟩ := callSend_step hi hf hs
      exact ⟨hflow, fun queued sent hc => by simpa [queuedFor, sentOn] using hcarried _ _ _ _ hc⟩
    | enqueue i =>
      obtain ⟨hflow, hcarried⟩ := enqueue_step hi hf hok hs
      exact ⟨hflow, fun queued sent hc => by simpa [sentOn] using hcarried _ _ _ _ hc⟩
    | notify i woken =>
      obtain ⟨-, sleepers, -, rfl⟩ := notify_cases hs
      have hset : Flow (s.setCall i .idle) := hf.setCall (fun _ _ _ hc => by cases hc) (fun _ hc => by cases hc)
      refine ⟨{ hset with }, fun queued sent hc => ?_⟩
      have hsame : Carried conn queued sent failed { s.setCall i .idle with sleepers := sleepers } := { hc with }
      simpa [queuedFor, sentOn] using hsame
    | spurious k =>
      obtain ⟨sleepers, -, rfl⟩ := spurious_cases hs
      refine ⟨hf.setLock _ _, fun queued sent hc => ?_⟩
      simpa [queuedFor, sentOn] using hc.setLock s.queueLock sleepers
    | callStop i =>
      obtain ⟨t, pc, rfl, hd, hsend, hstop⟩ := callStop_drops hf hs
      refine ⟨(hd.flow hi hf).setCall (fun _ msg c hc => absurd hc (hsend msg c)) hstop, fun queued sent hc => ?_⟩
      have hsame : Carried conn queued sent failed (t.setCall i pc) := { hd.carried hi hc with }
      simpa [queuedFor, sentOn] using hsame
  · cases hs

/-- A run of the server, as seen from one connection. -/
theorem run_carried {ls : List Label} (hi : Inv s) (hf : Flow s) (hc : Carried conn queued sent failed s)
    (hok : (machine size).Along (Fresh size) s ls) (hfailed : failed → ∀ n, .send conn (.sent n) ∉ ls)
    (hfail : FailsForGood conn ls) (hr : (machine size).run s ls = some s') :
    Carried conn (queued ++ ((machine size).trace (queuedFor size conn) s ls).flatten)
      (sent ++ ((machine size).trace (sentOn conn) s ls).flatten) (failed ∨ .send conn .error ∈ ls) s' := by
  induction ls generalizing s queued sent failed with
  | nil =>
    simp only [Machine.run_nil, Option.some.injEq] at hr
    subst hr
    simpa [Machine.trace] using hc
  | cons l ls ih =>
    obtain ⟨s1, h1, h2⟩ := Machine.run_cons.mp hr
    obtain ⟨hl, hok'⟩ := hok
    obtain ⟨hgood, hfail'⟩ := hfail
    have hnot : failed → ∀ n, l ≠ .send conn (.sent n) := fun hf' n he =>
      hfailed hf' n (he ▸ List.mem_cons_self)
    obtain ⟨hflow, hcarried⟩ := step_carried hi hf hl hnot h1
    have hnext := ih (inv_step hi hl h1) hflow (hcarried _ _ hc) (hok' s1 h1) ?_ hfail' h2
    · simp only [Machine.trace, h1, Option.elim_some, List.flatten_append, ← List.append_assoc]
      refine hnext.weaken ?_
      rintro ((hf' | he) | hmem)
      · exact .inl hf'
      · exact .inr (he ▸ List.mem_cons_self)
      · exact .inr (List.mem_cons_of_mem _ hmem)
    · rintro (hf' | he) n hmem
      · exact hfailed hf' n (List.mem_cons_of_mem _ hmem)
      · exact hgood he n hmem

/-- **The wire.** What is put on a connection is the beginning of the messages queued for it,
in their order and each in one piece; while the connection is up and no `::send` has failed, the
rest of them is in the hands of the send thread and in the queue. -/
theorem wire (size conn : Nat) (ls : List Label) (s : Sys) (hr : (machine size).run .start ls = some s)
    (hok : (machine size).Along (Fresh size) .start ls) (hfail : FailsForGood conn ls) :
    ((machine size).trace (sentOn conn) .start ls).flatten <+:
      ((machine size).trace (queuedFor size conn) .start ls).flatten ∧
    (s.conns = conn → s.running = true → s.connected = true → .send conn .error ∉ ls →
      ((machine size).trace (sentOn conn) .start ls).flatten ++ inHand (s.send conn) ++
          (s.queue.map Msg.data).flatten =
        ((machine size).trace (queuedFor size conn) .start ls).flatten) := by
  have hc := run_carried inv_start flow_start carried_start hok False.elim hfail hr
  simp only [List.nil_append, false_or] at hc
  refine ⟨hc.sent, fun hn hrun hup hnever => ?_⟩
  exact (hc.now hn hnever).resolve_right fun h => h.1.gone.not_up ⟨hrun, hup⟩

theorem failsForGood_of_never {k : Nat} {ls : List Label} (h : .send k .error ∉ ls) : FailsForGood k ls := by
  induction ls with
  | nil => trivial
  | cons l ls ih =>
    rw [List.mem_cons, not_or] at h
    exact ⟨fun he => absurd he.symm h.1, ih h.2⟩

/-- Two messages of three and two bytes; `::send` takes two bytes of the first one. -/
def partly : List Label :=
  accepts 9 ++ [.callSend 0 [1, 2, 3], .enqueue 0, .notify 0 none, .callSend 0 [4, 5], .enqueue 0, .notify 0 none] ++
    List.replicate 11 (.send 1 (.sent 2))

theorem wire_partly : ((machine 10000).trace (sentOn 1) .start partly).flatten = [1, 2] ∧
    ∃ s, (machine 10000).run .start partly = some s ∧
      [1, 2] ++ inHand (s.send 1) ++ (s.queue.map Msg.data).flatten = [1, 2, 3, 4, 5] := by
  have hsent : ((machine 10000).trace (sentOn 1) .start partly).flatten = [1, 2] := by decide +kernel
  have hqueued : ((machine 10000).trace (queuedFor 10000 1) .start partly).flatten = [1, 2, 3, 4, 5] := by
    decide +kernel
  have hrun : ((machine 10000).run .start partly).map (fun s => (s.conns, s.running, s.connected)) =
      some (1, true, true) := by decide +kernel
  obtain ⟨s, hs, hup⟩ := Option.map_eq_some_iff.mp hrun
  simp only [Prod.mk.injEq] at hup
  have hnever : .send 1 .error ∉ partly := by simp [partly, accepts]
  obtain ⟨-, hrest⟩ := wire 10000 1 partly s hs (by decide +kernel) (failsForGood_of_never hnever)
  have hall := hrest hup.1 hup.2.1 hup.2.2 hnever
  rw [hsent, hqueued] at hall
  exact ⟨hsent, s, hs, hall⟩

end MdInfoSet.L5.TcpWire
