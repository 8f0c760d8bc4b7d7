import Mathlib.Logic.Function.Basic
import MdInfoSet.Core.Machine
import MdInfoSet.Core.Mem

/-!
# The threads of `TCPServer`

`src/qx_commom/tcp_server.h` serves one client at a time: the accept thread closes the old
connection and starts a receive and a send thread for the new one. `close_connection` runs on
the accept thread and on the receive thread, `stop` on any thread but the accept and the send
thread, and `send` anywhere.

A step is one access to what the threads share (a load or store of a flag, a system call, a
`join`, a notification, a critical section of the queue). Connections are numbered from 1 in
the order of `handle_connection`, and number the threads started for them. `m_client_fd` is
the connection its socket belongs to; shutting it down, closing it and the `-1` are one step,
behind which `recv` gives nothing but 0 or an error. Joining oneself and assigning to a
joinable `std::thread` terminate the process: `crash`.

A send thread holds the lock of the queue from the predicate of its wait on to the end of its
critical section. One that finds nothing to do gives the lock up and sleeps on
`m_send_queue_cv`; it moves again when it is notified (by `send` or `stop`, not by
`close_connection`), or at a spurious wake-up. The flags are stored without the lock, so a
notification may come between its look at them and its sleep, and is lost.

The states begin behind `start`, which is not called again.
-/
namespace MdInfoSet.L5.TcpServer

/-- Who runs `close_connection` or `stop`. -/
inductive Tid where
  | accept
  | recv (k : Nat)
  | caller (i : Nat)
  deriving DecidableEq

/-- A `SendItem`, with the connection `send` saw up as a history variable. -/
structure Msg where
  conn : Nat
  data : Bytes
  deriving DecidableEq

inductive ClosePc where
  | storeConnected | closeClient | joinRecv | joinSend | clearQueue
  deriving DecidableEq

inductive StopPc where
  | loadRunning | storeRunning | storeConnected | notifyAll | closeClient | closeServer
  | joinAccept | joinRecv | joinSend | clearQueue
  deriving DecidableEq

inductive AcceptPc where
  | loop | poll | test
  | closing (pc : ClosePc)
  | storeFd | storeConnected | spawnRecv | assignRecv | spawnSend | assignSend
  | done
  deriving DecidableEq

/-- `conn` is the connection of the socket that `recv` is called with. -/
inductive RecvPc where
  | absent
  | loop | loopConnected | testFd
  | recv (conn : Nat)
  | callback
  | closing (pc : ClosePc)
  | stopping (pc : StopPc)
  | done
  deriving DecidableEq

/-- `msg` is the item taken from the queue, `totalSent` that of `internal_send`. The predicate
of the wait is looked at in `wait` and `waitConnected`, and the flags again behind it. -/
inductive SendPc where
  | absent
  | loop | loopConnected | lock
  | wait | waitConnected | sleep
  | check | take
  | testFd (msg : Msg)
  | sendLoop (msg : Msg) (totalSent : Nat)
  | sendLoopConnected (msg : Msg) (totalSent : Nat)
  | send (msg : Msg) (totalSent : Nat)
  | done
  deriving DecidableEq

/-- A call of `send` that has passed its check, with `clears` as it was then (history), or
of `stop`. -/
inductive CallPc where
  | idle
  | sending (msg : Msg) (clears : Nat)
  | notifying
  | stopping (pc : StopPc)
  deriving DecidableEq

inductive Crash where
  | joinsItself | assignsJoinable
  deriving DecidableEq

/-- `queueLock` is the send thread that holds `m_send_queue_mutex` across steps, `sleepers` are
those that sleep on `m_send_queue_cv`. `shut` are the connections whose socket was shut down.
`clears` counts how often the queue was cleared, and `sent` lists what `::send` took, with the
connection that got it. A handle is the thread a `std::thread` is joinable for. -/
structure Sys where
  running : Bool
  connected : Bool
  clientFd : Option Nat
  shut : List Nat
  serverOpen : Bool
  conns : Nat
  queue : List Msg
  queueLock : Option Nat
  sleepers : List Nat
  clears : Nat
  acceptHandle : Bool
  recvHandle : Option Nat
  sendHandle : Option Nat
  accept : AcceptPc
  recv : Nat → RecvPc
  send : Nat → SendPc
  call : Nat → CallPc
  sent : List (Nat × Msg)
  crash : Option Crash

/-- Behind `start`. -/
def Sys.start : Sys where
  running := true
  connected := false
  clientFd := none
  shut := []
  serverOpen := true
  conns := 0
  queue := []
  queueLock := none
  sleepers := []
  clears := 0
  acceptHandle := true
  recvHandle := none
  sendHandle := none
  accept := .loop
  recv _ := .absent
  send _ := .absent
  call _ := .idle
  sent := []
  crash := none

/-- What `epoll_wait` and `accept` come to. -/
inductive AcceptOut where
  | idle | fail | client

inductive RecvOut where
  | data | zero | error | again
  deriving DecidableEq

inductive SendOut where
  | sent (n : Nat)
  | again | error

inductive Label where
  | accept (out : AcceptOut)
  | recv (k : Nat) (out : RecvOut)
  /-- The callback of receive thread `k` calls `stop`. -/
  | callbackStop (k : Nat)
  | send (k : Nat) (out : SendOut)
  | callSend (i : Nat) (data : Bytes)
  | enqueue (i : Nat)
  /-- `notify_one` wakes `woken`. -/
  | notify (i : Nat) (woken : Option Nat)
  | spurious (k : Nat)
  | callStop (i : Nat)

namespace Sys

/-! ## Steps -/

/-- `if (m_recv_thread.joinable()) m_recv_thread.join();` blocks until the thread is done. -/
def joinRecv (s : Sys) (self : Tid) : Option Sys :=
  match s.recvHandle with
  | none => some s
  | some k =>
    if self = .recv k then some { s with crash := some .joinsItself }
    else if s.recv k = .done then some { s with recvHandle := none }
    else none

/-- No send thread runs this. -/
def joinSend (s : Sys) : Option Sys :=
  match s.sendHandle with
  | none => some s
  | some k => if s.send k = .done then some { s with sendHandle := none } else none

/-- mirrors src/qx_commom/tcp_server.h:166-170, 309-313 -/
def closeClient (s : Sys) : Sys := { s with clientFd := none, shut := s.clientFd.toList ++ s.shut }

/-- mirrors src/qx_commom/tcp_server.h:190-194, 323-327 -/
def clearQueue (s : Sys) : Option Sys :=
  if s.queueLock = none then some { s with queue := [], clears := s.clears + 1 } else none

/-- mirrors src/qx_commom/tcp_server.h:306-328 -/
def closeStep (s : Sys) (self : Tid) : ClosePc → Option (Sys × Option ClosePc)
  | .storeConnected => some ({ s with connected := false }, some .closeClient)
  | .closeClient => some (s.closeClient, some .joinRecv)
  | .joinRecv => (s.joinRecv self).map (·, some .joinSend)
  | .joinSend => s.joinSend.map (·, some .clearQueue)
  | .clearQueue => s.clearQueue.map (·, none)

/-- mirrors src/qx_commom/tcp_server.h:154-197 -/
def stopStep (s : Sys) (self : Tid) : StopPc → Option (Sys × Option StopPc)
  | .loadRunning => some (s, if s.running then some .storeRunning else none)
  | .storeRunning => some ({ s with running := false }, some .storeConnected)
  | .storeConnected => some ({ s with connected := false }, some .notifyAll)
  | .notifyAll => some ({ s with sleepers := [] }, some .closeClient)
  | .closeClient => some (s.closeClient, some .closeServer)
  | .closeServer => some ({ s with serverOpen := false }, some .joinAccept)
  | .joinAccept =>
    if s.acceptHandle then
      if s.accept = .done then some ({ s with acceptHandle := false }, some .joinRecv) else none
    else some (s, some .joinRecv)
  | .joinRecv => (s.joinRecv self).map (·, some .joinSend)
  | .joinSend => s.joinSend.map (·, some .clearQueue)
  | .clearQueue => s.clearQueue.map (·, none)

/-- mirrors src/qx_commom/tcp_server.h:229-304 -/
def acceptStep (s : Sys) (out : AcceptOut) : Option Sys :=
  match s.accept with
  | .loop => some { s with accept := if s.running then .poll else .done }
  | .poll =>
    match out with
    | .idle => some { s with accept := .loop }
    | .fail => some { s with accept := .done }
    | .client => if s.serverOpen then some { s with accept := .test } else none
  | .test => some { s with accept := if s.connected then .closing .storeConnected else .storeFd }
  | .closing pc => (s.closeStep .accept pc).map fun r => { r.1 with accept := r.2.elim .storeFd .closing }
  | .storeFd =>
    some { s with clientFd := some (s.conns + 1), conns := s.conns + 1, accept := .storeConnected }
  | .storeConnected => some { s with connected := true, accept := .spawnRecv }
  | .spawnRecv => some { s with recv := Function.update s.recv s.conns .loop, accept := .assignRecv }
  | .assignRecv =>
    if s.recvHandle = none then some { s with recvHandle := some s.conns, accept := .spawnSend }
    else some { s with crash := some .assignsJoinable }
  | .spawnSend => some { s with send := Function.update s.send s.conns .loop, accept := .assignSend }
  | .assignSend =>
    if s.sendHandle = none then some { s with sendHandle := some s.conns, accept := .loop }
    else some { s with crash := some .assignsJoinable }
  | .done => none

def setRecv (s : Sys) (k : Nat) (pc : RecvPc) : Sys := { s with recv := Function.update s.recv k pc }

/-- mirrors src/qx_commom/tcp_server.h:330-359 -/
def recvStep (s : Sys) (k : Nat) (out : RecvOut) : Option Sys :=
  match s.recv k with
  | .loop => some (s.setRecv k (if s.running then .loopConnected else .done))
  | .loopConnected => some (s.setRecv k (if s.connected then .testFd else .done))
  | .testFd => some (s.setRecv k (s.clientFd.elim .loop .recv))
  | .recv conn =>
    match out with
    | .data => if conn ∈ s.shut then none else some (s.setRecv k .callback)
    | .again => if conn ∈ s.shut then none else some (s.setRecv k .loop)
    | .zero | .error => some (s.setRecv k (.closing .storeConnected))
  | .callback => some (s.setRecv k .loop)
  | .closing pc => (s.closeStep (.recv k) pc).map fun r => r.1.setRecv k (r.2.elim .done .closing)
  | .stopping pc => (s.stopStep (.recv k) pc).map fun r => r.1.setRecv k (r.2.elim .callback .stopping)
  | .absent | .done => none

def setSend (s : Sys) (k : Nat) (pc : SendPc) : Sys := { s with send := Function.update s.send k pc }

/-- mirrors src/qx_commom/tcp_server.h:361-425
Who sleeps goes on with taking the lock when woken. -/
def sendStep (s : Sys) (k : Nat) (out : SendOut) : Option Sys :=
  if k ∈ s.sleepers then none
  else
    match s.send k with
    | .loop => some (s.setSend k (if s.running then .loopConnected else .done))
    | .loopConnected => some (s.setSend k (if s.connected then .lock else .done))
    | .lock => if s.queueLock = none then some { s.setSend k .wait with queueLock := some k } else none
    | .wait => some (s.setSend k (if s.running then .waitConnected else .check))
    -- under the lock the queue is at any time what it is now
    | .waitConnected => some (s.setSend k (if s.connected ∧ s.queue = [] then .sleep else .check))
    | .sleep => some { s.setSend k .lock with queueLock := none, sleepers := k :: s.sleepers }
    | .check =>
      some (if s.running then s.setSend k .take else { s.setSend k .done with queueLock := none })
    | .take =>
      if s.connected then
        match s.queue with
        | [] => some { s.setSend k .loop with queueLock := none }
        | msg :: queue => some { s.setSend k (.testFd msg) with queueLock := none, queue := queue }
      else some { s.setSend k .done with queueLock := none }
    | .testFd msg => some (s.setSend k (if s.clientFd = none then .loop else .sendLoop msg 0))
    | .sendLoop msg n =>
      some (s.setSend k (if n < msg.data.length ∧ s.running then .sendLoopConnected msg n else .loop))
    | .sendLoopConnected msg n => some (s.setSend k (if s.connected then .send msg n else .loop))
    | .send msg n =>
      match out with
      | .sent c => s.clientFd.bind fun conn =>
          if 0 < c ∧ n + c ≤ msg.data.length then
            some { s.setSend k (.sendLoop msg (n + c)) with sent := s.sent ++ [(conn, msg)] }
          else none
      | .again => some (s.setSend k (.sendLoop msg n))
      | .error => some (s.setSend k .loop)
    | .absent | .done => none

def setCall (s : Sys) (i : Nat) (pc : CallPc) : Sys := { s with call := Function.update s.call i pc }

/-- mirrors src/qx_commom/tcp_server.h:203-205, the check of `send` -/
def callSend (s : Sys) (i : Nat) (data : Bytes) : Option Sys :=
  if s.call i = .idle then
    some (if s.connected ∧ data ≠ [] then s.setCall i (.sending ⟨s.conns, data⟩ s.clears) else s)
  else none

/-- mirrors src/qx_commom/tcp_server.h:210-218, under the lock -/
def enqueue (sendQueueSize : Nat) (s : Sys) (i : Nat) : Option Sys :=
  match s.call i with
  | .sending msg _ =>
    if s.queueLock = none then
      some (if sendQueueSize ≤ s.queue.length then s.setCall i .idle
        else { s.setCall i .notifying with queue := s.queue ++ [msg] })
    else none
  | _ => none

/-- mirrors src/qx_commom/tcp_server.h:220, the `notify_one` of `send` -/
def notify (s : Sys) (i : Nat) (woken : Option Nat) : Option Sys :=
  if s.call i = .notifying then
    match woken with
    | none => if s.sleepers = [] then some (s.setCall i .idle) else none
    | some k =>
      if k ∈ s.sleepers then some { s.setCall i .idle with sleepers := s.sleepers.erase k } else none
  else none

def spurious (s : Sys) (k : Nat) : Option Sys :=
  if k ∈ s.sleepers then some { s with sleepers := s.sleepers.erase k } else none

def callStop (s : Sys) (i : Nat) : Option Sys :=
  match s.call i with
  | .idle => some (s.setCall i (.stopping .loadRunning))
  | .stopping pc => (s.stopStep (.caller i) pc).map fun r => r.1.setCall i (r.2.elim .idle .stopping)
  | .sending _ _ | .notifying => none

def callbackStop (s : Sys) (k : Nat) : Option Sys :=
  if s.recv k = .callback then some (s.setRecv k (.stopping .loadRunning)) else none

/-- A process that has crashed takes no step. -/
def step (sendQueueSize : Nat) (s : Sys) (l : Label) : Option Sys :=
  if s.crash = none then
    match l with
    | .accept out => s.acceptStep out
    | .recv k out => s.recvStep k out
    | .callbackStop k => s.callbackStop k
    | .send k out => s.sendStep k out
    | .callSend i data => s.callSend i data
    | .enqueue i => s.enqueue sendQueueSize i
    | .notify i woken => s.notify i woken
    | .spurious k => s.spurious k
    | .callStop i => s.callStop i
  else none

end Sys

def machine (sendQueueSize : Nat) : Machine Sys Label where
  init s := s = .start
  step := Sys.step sendQueueSize

/-! ## What `close_connection` and `stop` do to the shared state -/

/-- They take things down and start nothing; a handle is given up once its thread is done. -/
structure Lowered (s s' : Sys) : Prop where
  accept : s'.accept = s.accept
  conns : s'.conns = s.conns
  recv : s'.recv = s.recv
  send : s'.send = s.send
  call : s'.call = s.call
  sent : s'.sent = s.sent
  running : s'.running = true → s.running = true
  connected : s'.connected = true → s.connected = true
  clientFd : s'.clientFd = s.clientFd ∨ s'.clientFd = none
  queue : (s'.queue = s.queue ∧ s'.clears = s.clears) ∨
    (s'.queue = [] ∧ s'.clears = s.clears + 1 ∧ s.queueLock = none)
  queueLock : s'.queueLock = s.queueLock
  sleepers : s'.sleepers = s.sleepers ∨ s'.sleepers = []
  acceptHandle : s'.acceptHandle = s.acceptHandle ∨ s.accept = .done
  recvHandle : s'.recvHandle = s.recvHandle ∨
    s'.recvHandle = none ∧ ∀ k, s.recvHandle = some k → s.recv k = .done
  sendHandle : s'.sendHandle = s.sendHandle ∨
    s'.sendHandle = none ∧ ∀ k, s.sendHandle = some k → s.send k = .done

namespace Lowered

theorem refl (s : Sys) : Lowered s s :=
  ⟨rfl, rfl, rfl, rfl, rfl, rfl, id, id, .inl rfl, .inl ⟨rfl, rfl⟩, rfl, .inl rfl, .inl rfl, .inl rfl, .inl rfl⟩

variable {s s' : Sys}

theorem recvHandle_eq (h : Lowered s s') : s'.recvHandle = s.recvHandle ∨ s'.recvHandle = none :=
  h.recvHandle.imp_right And.left

theorem sendHandle_eq (h : Lowered s s') : s'.sendHandle = s.sendHandle ∨ s'.sendHandle = none :=
  h.sendHandle.imp_right And.left

end Lowered

section Shared

variable {s s' : Sys} {self : Tid}

/-- Joining ends the handle, or the process. -/
theorem joinRecv_cases (h : s.joinRecv self = some s') :
    Lowered s s' ∧ (s'.crash = s.crash ∧ s'.recvHandle = none ∨ ∃ k, self = .recv k ∧ s.recvHandle = some k) := by
  unfold Sys.joinRecv at h
  cases hh : s.recvHandle with
  | none =>
    simp only [hh] at h
    cases h
    exact ⟨Lowered.refl s, .inl ⟨rfl, hh⟩⟩
  | some k =>
    simp only [hh] at h
    split at h
    · cases h
      exact ⟨{ Lowered.refl s with recvHandle := .inl hh.symm }, .inr ⟨k, ‹_›, rfl⟩⟩
    · split at h
      · cases h
        refine ⟨{ Lowered.refl s with recvHandle := .inr ⟨rfl, fun j hj => ?_⟩ }, .inl ⟨rfl, rfl⟩⟩
        rw [hh, Option.some.injEq] at hj
        exact hj ▸ ‹s.recv k = .done›
      · cases h

theorem joinSend_cases (h : s.joinSend = some s') :
    Lowered s s' ∧ s'.crash = s.crash ∧ s'.sendHandle = none := by
  unfold Sys.joinSend at h
  cases hh : s.sendHandle with
  | none =>
    simp only [hh] at h
    cases h
    exact ⟨Lowered.refl s, rfl, hh⟩
  | some k =>
    simp only [hh] at h
    split at h
    · cases h
      refine ⟨{ Lowered.refl s with sendHandle := .inr ⟨rfl, fun j hj => ?_⟩ }, rfl, rfl⟩
      rw [hh, Option.some.injEq] at hj
      exact hj ▸ ‹s.send k = .done›
    · cases h

theorem clearQueue_cases (h : s.clearQueue = some s') :
    Lowered s s' ∧ s'.crash = s.crash ∧ s'.queue = [] ∧ s'.clears = s.clears + 1 := by
  unfold Sys.clearQueue at h
  split at h
  · cases h
    exact ⟨{ Lowered.refl s with queue := .inr ⟨rfl, rfl, ‹_›⟩ }, rfl, rfl, rfl⟩
  · cases h

/-- The program point behind one of `close_connection`. -/
def ClosePc.next : ClosePc → Option ClosePc
  | .storeConnected => some .closeClient
  | .closeClient => some .joinRecv
  | .joinRecv => some .joinSend
  | .joinSend => some .clearQueue
  | .clearQueue => none

theorem closeStep_cases {pc : ClosePc} {next : Option ClosePc} (h : s.closeStep self pc = some (s', next)) :
    Lowered s s' ∧ next = pc.next ∧
      (s'.crash = s.crash ∨ ∃ k, pc = .joinRecv ∧ self = .recv k ∧ s.recvHandle = some k) := by
  cases pc with
  | storeConnected =>
    cases h
    exact ⟨{ Lowered.refl s with connected := nofun }, rfl, .inl rfl⟩
  | closeClient =>
    cases h
    exact ⟨{ Lowered.refl s with clientFd := .inr rfl }, rfl, .inl rfl⟩
  | joinRecv =>
    obtain ⟨t, ht, hr⟩ := Option.map_eq_some_iff.mp h
    cases hr
    obtain ⟨hl, hc⟩ := joinRecv_cases ht
    exact ⟨hl, rfl, hc.imp And.left fun ⟨k, h1, h2⟩ => ⟨k, rfl, h1, h2⟩⟩
  | joinSend =>
    obtain ⟨t, ht, hr⟩ := Option.map_eq_some_iff.mp h
    cases hr
    obtain ⟨hl, hc, -⟩ := joinSend_cases ht
    exact ⟨hl, rfl, .inl hc⟩
  | clearQueue =>
    obtain ⟨t, ht, hr⟩ := Option.map_eq_some_iff.mp h
    cases hr
    obtain ⟨hl, hc, -, -⟩ := clearQueue_cases ht
    exact ⟨hl, rfl, .inl hc⟩

/-- The accept thread has been joined. -/
def StopPc.Late : StopPc → Prop
  | .joinRecv | .joinSend | .clearQueue => True
  | _ => False

theorem stopStep_cases {pc : StopPc} {next : Option StopPc} (h : s.stopStep self pc = some (s', next)) :
    Lowered s s' ∧ (pc = .loadRunning → s.running = false → next = none) ∧
      (s'.crash = s.crash ∨ ∃ k, pc = .joinRecv ∧ self = .recv k ∧ s.recvHandle = some k) ∧
      (s'.recvHandle = s.recvHandle ∨ pc.Late) ∧
      (∀ q, next = some q → q.Late → pc.Late ∨ s.accept = .done ∨ s.acceptHandle = false) := by
  cases pc with
  | loadRunning =>
    cases h
    refine ⟨Lowered.refl s, fun _ hr => by simp [hr], .inl rfl, .inl rfl, fun q hq hlate => ?_⟩
    split at hq <;> cases hq
    exact hlate.elim
  | storeRunning =>
    cases h
    exact ⟨{ Lowered.refl s with running := nofun }, nofun, .inl rfl, .inl rfl,
      fun q hq hlate => by cases hq; exact hlate.elim⟩
  | storeConnected =>
    cases h
    exact ⟨{ Lowered.refl s with connected := nofun }, nofun, .inl rfl, .inl rfl,
      fun q hq hlate => by cases hq; exact hlate.elim⟩
  | notifyAll =>
    cases h
    exact ⟨{ Lowered.refl s with sleepers := .inr rfl }, nofun, .inl rfl, .inl rfl,
      fun q hq hlate => by cases hq; exact hlate.elim⟩
  | closeClient =>
    cases h
    exact ⟨{ Lowered.refl s with clientFd := .inr rfl }, nofun, .inl rfl, .inl rfl,
      fun q hq hlate => by cases hq; exact hlate.elim⟩
  | closeServer =>
    cases h
    exact ⟨{ Lowered.refl s with }, nofun, .inl rfl, .inl rfl, fun q hq hlate => by cases hq; exact hlate.elim⟩
  | joinAccept =>
    simp only [Sys.stopStep] at h
    split at h
    · split at h
      · cases h
        exact ⟨{ Lowered.refl s with acceptHandle := .inr ‹_› }, nofun, .inl rfl, .inl rfl,
          fun _ _ _ => .inr (.inl ‹_›)⟩
      · cases h
    · cases h
      exact ⟨Lowered.refl s, nofun, .inl rfl, .inl rfl, fun _ _ _ => .inr (.inr (eq_false_of_ne_true ‹_›))⟩
  | joinRecv =>
    obtain ⟨t, ht, hr⟩ := Option.map_eq_some_iff.mp h
    cases hr
    obtain ⟨hl, hc⟩ := joinRecv_cases ht
    refine ⟨hl, nofun, ?_, .inr trivial, fun _ _ _ => .inl trivial⟩
    exact hc.imp And.left fun ⟨k, h1, h2⟩ => ⟨k, rfl, h1, h2⟩
  | joinSend =>
    obtain ⟨t, ht, hr⟩ := Option.map_eq_some_iff.mp h
    cases hr
    obtain ⟨hl, hc, -⟩ := joinSend_cases ht
    exact ⟨hl, nofun, .inl hc, .inr trivial, fun _ _ _ => .inl trivial⟩
  | clearQueue =>
    obtain ⟨t, ht, hr⟩ := Option.map_eq_some_iff.mp h
    cases hr
    obtain ⟨hl, hc, -, -⟩ := clearQueue_cases ht
    exact ⟨hl, nofun, .inl hc, .inr trivial, nofun⟩

end Shared

/-! ## One step of each thread -/

/-- The thread will run the join test of `close_connection` for the receive thread. -/
def RecvPc.Closing : RecvPc → Prop
  | .closing pc => pc = .storeConnected ∨ pc = .closeClient ∨ pc = .joinRecv
  | _ => False

section Threads

variable {s s' : Sys}

/-- The thread is in `recv`. -/
def RecvPc.Receives : RecvPc → Prop
  | .recv _ => True
  | _ => False

instance : DecidablePred RecvPc.Closing := fun pc => by
  unfold RecvPc.Closing
  cases pc <;> infer_instance

instance : DecidablePred RecvPc.Receives := fun pc => by
  unfold RecvPc.Receives
  cases pc <;> infer_instance

/-- A receive thread moves on, to `pc`, and takes things down where it is in one of the two
functions. -/
structure RecvMoves (s : Sys) (k : Nat) (out : RecvOut) (pc : RecvPc) (t : Sys) : Prop where
  lowered : Lowered s t
  started : s.recv k ≠ .absent
  running : s.recv k ≠ .done
  present : pc ≠ .absent
  receives : pc.Receives → s.clientFd ≠ none
  closing : pc.Closing → (s.recv k).Closing ∨ (s.recv k).Receives ∧ (out = .zero ∨ out = .error)
  stopping : ∀ q, pc = .stopping q → ∃ q₀, s.recv k = .stopping q₀ ∧ (q₀ = .loadRunning → s.running = true)
  crash : t.crash = s.crash ∨
    s.recvHandle = some k ∧ (s.recv k = .closing .joinRecv ∨ s.recv k = .stopping .joinRecv)

theorem recvStep_cases {k : Nat} {out : RecvOut} (h : s.recvStep k out = some s') :
    ∃ pc t, RecvMoves s k out pc t ∧ s' = t.setRecv k pc := by
  unfold Sys.recvStep at h
  cases hpc : s.recv k with
  | absent | done =>
    simp only [hpc] at h
    cases h
  | loop | loopConnected | callback =>
    simp only [hpc, Option.some.injEq] at h
    refine ⟨_, s, ⟨Lowered.refl s, by simp [hpc], by simp [hpc], ?_, ?_, ?_, ?_, .inl rfl⟩, h.symm⟩ <;>
      (try split) <;> simp [RecvPc.Closing, RecvPc.Receives]
  | testFd =>
    simp only [hpc, Option.some.injEq] at h
    refine ⟨_, s, ⟨Lowered.refl s, by simp [hpc], by simp [hpc], ?_, ?_, ?_, ?_, .inl rfl⟩, h.symm⟩ <;>
      cases s.clientFd <;> simp [RecvPc.Closing, RecvPc.Receives]
  | recv conn =>
    simp only [hpc] at h
    cases out with
    | data | again =>
      simp only [Option.ite_none_left_eq_some, Option.some.injEq] at h
      exact ⟨_, s, ⟨Lowered.refl s, by simp [hpc], by simp [hpc], by simp, by simp [RecvPc.Receives],
        by simp [RecvPc.Closing], by simp, .inl rfl⟩, h.2.symm⟩
    | zero | error =>
      exact ⟨_, s, ⟨Lowered.refl s, by simp [hpc], by simp [hpc], by simp, by simp [RecvPc.Receives],
        by simp [hpc, RecvPc.Receives], by simp, .inl rfl⟩, (Option.some.inj h).symm⟩
  | closing pc =>
    simp only [hpc] at h
    obtain ⟨⟨t, next⟩, ht, rfl⟩ := Option.map_eq_some_iff.mp h
    obtain ⟨hl, rfl, hcrash⟩ := closeStep_cases ht
    refine ⟨_, t, ⟨hl, by simp [hpc], by simp [hpc], ?_, ?_, ?_, ?_, ?_⟩, rfl⟩
    · cases pc <;> simp [ClosePc.next]
    · cases pc <;> simp [ClosePc.next, RecvPc.Receives]
    · cases pc <;> simp [hpc, ClosePc.next, RecvPc.Closing]
    · cases pc <;> simp [ClosePc.next]
    · rcases hcrash with hc | ⟨j, rfl, hself, hj⟩
      · exact .inl hc
      · cases hself
        exact .inr ⟨hj, .inl hpc⟩
  | stopping pc =>
    simp only [hpc] at h
    obtain ⟨⟨t, next⟩, ht, rfl⟩ := Option.map_eq_some_iff.mp h
    obtain ⟨hl, hnext, hcrash, -⟩ := stopStep_cases ht
    refine ⟨_, t, ⟨hl, by simp [hpc], by simp [hpc], ?_, ?_, ?_, ?_, ?_⟩, rfl⟩
    · cases next <;> simp
    · cases next <;> simp [RecvPc.Receives]
    · cases next <;> simp [RecvPc.Closing]
    · intro q hq
      refine ⟨pc, hpc, fun hload => ?_⟩
      cases hrun : s.running with
      | true => rfl
      | false =>
        rw [hnext hload hrun] at hq
        cases hq
    · rcases hcrash with hc | ⟨j, rfl, hself, hj⟩
      · exact .inl hc
      · cases hself
        exact .inr ⟨hj, .inr hpc⟩

/-- The message a send thread is about to transmit. -/
def SendPc.msg : SendPc → Option Msg
  | .testFd msg | .sendLoop msg _ | .sendLoopConnected msg _ | .send msg _ => some msg
  | _ => none

/-- The thread holds the lock of the queue. -/
def SendPc.Holds : SendPc → Prop
  | .wait | .waitConnected | .sleep | .check | .take => True
  | _ => False

instance : DecidablePred SendPc.Holds := fun pc => by
  unfold SendPc.Holds
  cases pc <;> infer_instance

/-- A send thread that is awake moves on, to `pc`: it takes the lock or gives it up, goes to
sleep, takes the head of the queue, or transmits on `m_client_fd` what it took. -/
structure SendMoves (s : Sys) (k : Nat) (pc : SendPc) (queue : List Msg) (queueLock : Option Nat)
    (sleepers : List Nat) (sent : List (Nat × Msg)) : Prop where
  started : s.send k ≠ .absent
  running : s.send k ≠ .done
  awake : k ∉ s.sleepers
  present : pc ≠ .absent
  queue : queue = s.queue ∧ (∀ msg, pc.msg = some msg → (s.send k).msg = some msg) ∨
    ∃ msg, s.queue = msg :: queue ∧ pc.msg = some msg
  queueLock : queueLock = s.queueLock ∧ (pc.Holds ↔ (s.send k).Holds) ∨
    queueLock = none ∧ (s.send k).Holds ∧ ¬ pc.Holds ∨
    queueLock = some k ∧ s.queueLock = none ∧ pc.Holds ∧ ¬ (s.send k).Holds
  sleepers : sleepers = s.sleepers ∨ sleepers = k :: s.sleepers ∧ pc = .lock ∧ s.send k = .sleep
  sleep : pc = .sleep → s.connected = true
  sent : sent = s.sent ∨ ∃ conn msg, s.clientFd = some conn ∧ (s.send k).msg = some msg ∧
    sent = s.sent ++ [(conn, msg)]

theorem sendStep_cases {k : Nat} {out : SendOut} (h : s.sendStep k out = some s') :
    ∃ pc queue queueLock sleepers sent, SendMoves s k pc queue queueLock sleepers sent ∧
      s' = { s.setSend k pc with queue := queue, queueLock := queueLock, sleepers := sleepers, sent := sent } := by
  unfold Sys.sendStep at h
  split at h
  · cases h
  · rename_i hawake
    -- Most steps touch nothing but the thread's own place.
    have hmove : ∀ pc, s.send k ≠ .absent → s.send k ≠ .done → pc ≠ .absent →
        (∀ msg, pc.msg = some msg → (s.send k).msg = some msg) → (pc.Holds ↔ (s.send k).Holds) →
        (pc = .sleep → s.connected = true) → s' = s.setSend k pc →
        ∃ pc queue queueLock sleepers sent, SendMoves s k pc queue queueLock sleepers sent ∧
          s' = { s.setSend k pc with queue := queue, queueLock := queueLock, sleepers := sleepers, sent := sent } :=
      fun pc h1 h2 h3 h4 h5 h6 hs => ⟨pc, s.queue, s.queueLock, s.sleepers, s.sent,
        ⟨h1, h2, hawake, h3, .inl ⟨rfl, h4⟩, .inl ⟨rfl, h5⟩, .inl rfl, h6, .inl rfl⟩, hs⟩
    -- A thread that gives up the lock and does nothing else ends, or starts its loop again.
    have hunlock : ∀ pc, s.send k ≠ .absent → s.send k ≠ .done → (s.send k).Holds → pc = .done ∨ pc = .loop →
        s' = { s.setSend k pc with queueLock := none } →
        ∃ pc queue queueLock sleepers sent, SendMoves s k pc queue queueLock sleepers sent ∧
          s' = { s.setSend k pc with queue := queue, queueLock := queueLock, sleepers := sleepers, sent := sent } := by
      intro pc h1 h2 h3 h4 hs
      refine ⟨pc, s.queue, none, s.sleepers, s.sent,
        ⟨h1, h2, hawake, ?_, .inl ⟨rfl, ?_⟩, .inr (.inl ⟨rfl, h3, ?_⟩), .inl rfl, ?_, .inl rfl⟩, hs⟩ <;>
        rcases h4 with rfl | rfl <;> simp [SendPc.msg, SendPc.Holds]
    cases hpc : s.send k with
    | absent | done =>
      simp only [hpc] at h
      cases h
    | loop | loopConnected | wait | testFd msg | sendLoop msg n | sendLoopConnected msg n =>
      simp only [hpc, Option.some.injEq] at h
      refine hmove _ (by simp [hpc]) (by simp [hpc]) ?_ ?_ ?_ ?_ h.symm <;> split <;>
        simp [hpc, SendPc.msg, SendPc.Holds]
    | waitConnected =>
      simp only [hpc, Option.some.injEq] at h
      refine hmove _ (by simp [hpc]) (by simp [hpc]) ?_ ?_ ?_ ?_ h.symm <;> split <;>
        simp_all [SendPc.msg, SendPc.Holds]
    | lock =>
      simp only [hpc] at h
      split at h
      · cases h
        exact ⟨.wait, s.queue, some k, s.sleepers, s.sent, ⟨by simp [hpc], by simp [hpc], hawake, nofun,
          .inl ⟨rfl, nofun⟩, .inr (.inr ⟨rfl, ‹_›, trivial, by simp [hpc, SendPc.Holds]⟩), .inl rfl, nofun, .inl rfl⟩,
          rfl⟩
      · cases h
    | sleep =>
      simp only [hpc, Option.some.injEq] at h
      exact ⟨.lock, s.queue, none, k :: s.sleepers, s.sent, ⟨by simp [hpc], by simp [hpc], hawake, nofun,
        .inl ⟨rfl, nofun⟩, .inr (.inl ⟨rfl, by simp [hpc, SendPc.Holds], id⟩), .inr ⟨rfl, rfl, hpc⟩, nofun,
        .inl rfl⟩, h.symm⟩
    | check =>
      simp only [hpc, Option.some.injEq] at h
      split at h
      · exact hmove .take (by simp [hpc]) (by simp [hpc]) nofun nofun (by simp [hpc, SendPc.Holds]) nofun h.symm
      · exact hunlock .done (by simp [hpc]) (by simp [hpc]) (by simp [hpc, SendPc.Holds]) (.inl rfl) h.symm
    | take =>
      have hholds : (s.send k).Holds := by simp [hpc, SendPc.Holds]
      simp only [hpc] at h
      split at h
      · cases hq : s.queue with
        | nil =>
          simp only [hq, Option.some.injEq] at h
          exact hunlock .loop (by simp [hpc]) (by simp [hpc]) hholds (.inr rfl) h.symm
        | cons msg queue =>
          simp only [hq, Option.some.injEq] at h
          exact ⟨.testFd msg, queue, none, s.sleepers, s.sent, ⟨by simp [hpc], by simp [hpc], hawake, nofun,
            .inr ⟨msg, hq, rfl⟩, .inr (.inl ⟨rfl, hholds, id⟩), .inl rfl, nofun, .inl rfl⟩, h.symm⟩
      · cases h
        exact hunlock .done (by simp [hpc]) (by simp [hpc]) hholds (.inl rfl) rfl
    | send msg n =>
      simp only [hpc] at h
      cases out with
      | sent c =>
        obtain ⟨conn, hconn, h⟩ := Option.bind_eq_some_iff.mp h
        split at h
        · cases h
          exact ⟨.sendLoop msg (n + c), s.queue, s.queueLock, s.sleepers, s.sent ++ [(conn, msg)],
            ⟨by simp [hpc], by simp [hpc], hawake, nofun, .inl ⟨rfl, by simp [hpc, SendPc.msg]⟩,
              .inl ⟨rfl, by simp [hpc, SendPc.Holds]⟩, .inl rfl, nofun,
              .inr ⟨conn, msg, hconn, by simp [hpc, SendPc.msg], rfl⟩⟩, rfl⟩
        · cases h
      | again =>
        exact hmove (.sendLoop msg n) (by simp [hpc]) (by simp [hpc]) nofun (by simp [hpc, SendPc.msg])
          (by simp [hpc, SendPc.Holds]) nofun (Option.some.inj h).symm
      | error =>
        exact hmove .loop (by simp [hpc]) (by simp [hpc]) nofun nofun (by simp [hpc, SendPc.Holds]) nofun
          (Option.some.inj h).symm

/-- A call of `stop` that is over or has just begun, or that goes on. -/
theorem callStop_cases {i : Nat} (h : s.callStop i = some s') :
    ∃ t pc, s' = t.setCall i pc ∧ Lowered s t ∧ t.crash = s.crash ∧ (∀ msg c, pc ≠ .sending msg c) ∧
      (t.recvHandle = s.recvHandle ∨ ∃ q, s.call i = .stopping q ∧ q.Late) ∧
      (∀ q, pc = .stopping q → q.Late →
        (∃ q₀, s.call i = .stopping q₀ ∧ q₀.Late) ∨ s.accept = .done ∨ s.acceptHandle = false) := by
  unfold Sys.callStop at h
  cases hpc : s.call i with
  | idle =>
    simp only [hpc] at h
    cases h
    exact ⟨s, _, rfl, Lowered.refl s, rfl, nofun, .inl rfl, fun q hq hlate => by cases hq; exact hlate.elim⟩
  | sending msg c | notifying =>
    simp only [hpc] at h
    cases h
  | stopping pc =>
    simp only [hpc] at h
    obtain ⟨⟨t, next⟩, ht, rfl⟩ := Option.map_eq_some_iff.mp h
    obtain ⟨hl, -, hcrash, hhandle, hlate⟩ := stopStep_cases ht
    refine ⟨t, _, rfl, hl, ?_, fun msg c => by cases next <;> nofun, ?_, fun q hq hq' => ?_⟩
    · rcases hcrash with hc | ⟨j, -, hself, -⟩
      · exact hc
      · cases hself
    · exact hhandle.imp_right fun h => ⟨pc, rfl, h⟩
    · cases next with
      | none => cases hq
      | some q' =>
        cases hq
        exact (hlate q rfl hq').imp_left fun h => ⟨pc, rfl, h⟩

/-- `send` under the lock: the queue is full, or the message is put into it. -/
theorem enqueue_cases {size i : Nat} (h : s.enqueue size i = some s') :
    ∃ msg c, s.call i = .sending msg c ∧ s.queueLock = none ∧
      (size ≤ s.queue.length ∧ s' = s.setCall i .idle ∨
        s.queue.length < size ∧ s' = { s.setCall i .notifying with queue := s.queue ++ [msg] }) := by
  unfold Sys.enqueue at h
  cases hpc : s.call i with
  | idle | notifying | stopping q =>
    simp only [hpc] at h
    cases h
  | sending msg c =>
    simp only [hpc] at h
    split at h
    · refine ⟨msg, c, rfl, ‹_›, ?_⟩
      split at h <;> cases h
      · exact .inl ⟨‹_›, rfl⟩
      · exact .inr ⟨Nat.lt_of_not_le ‹_›, rfl⟩
    · cases h

/-- A notification wakes at most somebody. -/
theorem notify_cases {i : Nat} {woken : Option Nat} (h : s.notify i woken = some s') :
    s.call i = .notifying ∧
      ∃ sleepers, sleepers ⊆ s.sleepers ∧ s' = { s.setCall i .idle with sleepers := sleepers } := by
  unfold Sys.notify at h
  split at h
  · refine ⟨‹_›, ?_⟩
    cases woken with
    | none =>
      simp only [Option.ite_none_right_eq_some, Option.some.injEq] at h
      exact ⟨s.sleepers, List.Subset.refl _, h.2.symm⟩
    | some k =>
      simp only [Option.ite_none_right_eq_some, Option.some.injEq] at h
      exact ⟨s.sleepers.erase k, List.erase_subset, h.2.symm⟩
  · cases h

theorem spurious_cases {k : Nat} (h : s.spurious k = some s') :
    ∃ sleepers, sleepers ⊆ s.sleepers ∧ s' = { s with sleepers := sleepers } := by
  simp only [Sys.spurious, Option.ite_none_right_eq_some, Option.some.injEq] at h
  exact ⟨s.sleepers.erase k, List.erase_subset, h.2.symm⟩

/-- The check of `send`. -/
theorem callSend_cases {i : Nat} {data : Bytes} (h : s.callSend i data = some s') :
    s' = s ∨ s.connected = true ∧ s' = s.setCall i (.sending ⟨s.conns, data⟩ s.clears) := by
  simp only [Sys.callSend] at h
  split at h
  · cases h
    split
    · rename_i hup
      exact .inr ⟨hup.1, rfl⟩
    · exact .inl rfl
  · cases h

theorem callbackStop_cases {k : Nat} (h : s.callbackStop k = some s') :
    s.recv k = .callback ∧ s' = s.setRecv k (.stopping .loadRunning) := by
  simp only [Sys.callbackStop, Option.ite_none_right_eq_some, Option.some.injEq] at h
  exact ⟨h.1, h.2.symm⟩

end Threads

/-- `n` steps of the accept thread, while a client is waiting. -/
def accepts (n : Nat) : List Label := List.replicate n (.accept .client)

end MdInfoSet.L5.TcpServer
