import MdInfoSet.L5Concurrency.TcpServer

/-!
# The threads at each point of the accept thread

As long as every client but the first is handled behind `close_connection` (`TestsClosed`),
only the receive and the send thread of the last connection run, `m_recv_thread` and
`m_send_thread` are theirs once they are assigned, and the lock of the queue is held by a send
thread in its critical section (`Threads`). `threads_step`: every step keeps it.
-/
namespace MdInfoSet.L5.TcpServer

/-- Only `handle_connection` assigns a handle, so what is joined before stays so. -/
def HandlesAt (s : Sys) : AcceptPc → Prop
  | .closing .joinSend => s.recvHandle = none
  | .closing .clearQueue | .storeFd | .storeConnected | .spawnRecv | .assignRecv =>
    s.recvHandle = none ∧ s.sendHandle = none
  | .spawnSend | .assignSend => s.sendHandle = none
  | _ => True

theorem HandlesAt.mono {s s' : Sys} {pc : AcceptPc} (h : HandlesAt s pc)
    (hr : s'.recvHandle = s.recvHandle ∨ s'.recvHandle = none)
    (hs : s'.sendHandle = s.sendHandle ∨ s'.sendHandle = none) : HandlesAt s' pc := by
  have hr' : s.recvHandle = none → s'.recvHandle = none := fun h => hr.elim (·.trans h) id
  have hs' : s.sendHandle = none → s'.sendHandle = none := fun h => hs.elim (·.trans h) id
  cases pc with
  | closing pc =>
    cases pc with
    | joinSend => exact hr' h
    | clearQueue => exact ⟨hr' h.1, hs' h.2⟩
    | storeConnected | closeClient | joinRecv => trivial
  | storeFd | storeConnected | spawnRecv | assignRecv => exact ⟨hr' h.1, hs' h.2⟩
  | spawnSend | assignSend => exact hs' h
  | loop | poll | test | done => trivial

/-- The old connection is closed before the next one is handled. -/
def TestsClosed (s : Sys) : Prop :=
  s.accept = .test → s.connected = true ∨ s.recvHandle = none ∧ s.sendHandle = none

instance (s : Sys) : Decidable (TestsClosed s) := by
  unfold TestsClosed
  infer_instance

/-- The condition on a step: `TestsClosed` where the accept thread takes one. -/
def ClosesFirst (s : Sys) (l : Label) : Prop := ∀ out, l = .accept out → TestsClosed s

instance (s : Sys) : DecidablePred (ClosesFirst s)
  | .accept out => decidable_of_iff (TestsClosed s) ⟨fun h _ _ => h, fun h => h out rfl⟩
  | .recv _ _ | .callbackStop _ | .send _ _ | .callSend _ _ | .enqueue _ | .notify _ _ | .spurious _ | .callStop _ =>
    .isTrue fun _ h => by cases h

/-- In its loop and after `poll` the accept thread only moves on. -/
theorem waiting_cases {s s' : Sys} {out : AcceptOut} (hpc : s.accept = .loop ∨ s.accept = .poll)
    (h : s.acceptStep out = some s') :
    ∃ pc, s' = { s with accept := pc } ∧ (pc = .loop ∨ pc = .poll ∨ pc = .test ∨ pc = .done) := by
  rcases hpc with hpc | hpc
  · simp only [Sys.acceptStep, hpc] at h
    refine ⟨_, (Option.some.inj h).symm, ?_⟩
    split
    · exact .inr (.inl rfl)
    · exact .inr (.inr (.inr rfl))
  · simp only [Sys.acceptStep, hpc] at h
    cases out with
    | idle => exact ⟨.loop, (Option.some.inj h).symm, .inl rfl⟩
    | fail => exact ⟨.done, (Option.some.inj h).symm, .inr (.inr (.inr rfl))⟩
    | client =>
      by_cases hopen : s.serverOpen = true
      · exact ⟨.test, by simpa [hopen] using h.symm, .inr (.inr (.inl rfl))⟩
      · simp [hopen] at h

/-- `close_connection` on the accept thread goes on to `handle_connection`. -/
theorem closing_cases {s s' : Sys} {out : AcceptOut} {pc : ClosePc} (hpc : s.accept = .closing pc)
    (h : s.acceptStep out = some s') :
    ∃ t, s' = { t with accept := pc.next.elim .storeFd .closing } ∧ Lowered s t ∧ t.crash = s.crash ∧
      (pc = .storeConnected → t.connected = false) ∧
      (pc = .storeConnected ∨ pc = .closeClient → t.recvHandle = s.recvHandle) ∧
      (pc = .closeClient → t.clientFd = none) ∧ (pc = .joinRecv → t.recvHandle = none) ∧
      (pc = .joinSend → t.sendHandle = none) ∧
      (pc = .clearQueue → t.queue = [] ∧ t.clears = s.clears + 1) := by
  simp only [Sys.acceptStep, hpc] at h
  obtain ⟨⟨t, next⟩, ht, rfl⟩ := Option.map_eq_some_iff.mp h
  obtain ⟨hl, rfl, hcrash⟩ := closeStep_cases ht
  have hc : t.crash = s.crash := by
    rcases hcrash with hc | ⟨k, -, hself, -⟩
    · exact hc
    · cases hself
  refine ⟨t, rfl, hl, hc, fun hp => ?_, fun hp => ?_, fun hp => ?_, fun hp => ?_, fun hp => ?_, fun hp => ?_⟩
  · subst hp
    cases ht
    rfl
  · rcases hp with rfl | rfl <;> cases ht <;> rfl
  · subst hp
    cases ht
    rfl
  · subst hp
    obtain ⟨t', ht', hr⟩ := Option.map_eq_some_iff.mp ht
    cases hr
    rcases (joinRecv_cases ht').2 with ⟨-, h⟩ | ⟨k, hself, -⟩
    · exact h
    · cases hself
  · subst hp
    obtain ⟨t', ht', hr⟩ := Option.map_eq_some_iff.mp ht
    cases hr
    exact (joinSend_cases ht').2.2
  · subst hp
    obtain ⟨t', ht', hr⟩ := Option.map_eq_some_iff.mp ht
    cases hr
    exact (clearQueue_cases ht').2.2

/-- What holds at each point of the accept thread. A connection that is not closed yet has its
receive thread in `m_recv_thread`. -/
def PointAt (s : Sys) : AcceptPc → Prop
  | .loop | .poll | .test | .closing .storeConnected => 1 ≤ s.conns → s.recvHandle = some s.conns
  | .closing .closeClient | .closing .joinRecv =>
    s.connected = false ∧ (1 ≤ s.conns → s.recvHandle = some s.conns)
  | .closing .joinSend | .closing .clearQueue | .storeFd => s.connected = false
  | .storeConnected => s.connected = false ∧ 1 ≤ s.conns
  | .spawnRecv | .assignRecv => 1 ≤ s.conns
  | .spawnSend | .assignSend => 1 ≤ s.conns ∧ s.recvHandle = some s.conns
  | .done => True

structure Threads (s : Sys) : Prop where
  /-- Only the threads of the last connection run. -/
  recv : s.accept ≠ .done → ∀ k, s.recv k ≠ .absent → s.recv k ≠ .done →
    k = s.conns ∧ (s.recvHandle = some k ∨ s.accept = .assignRecv)
  send : s.accept ≠ .done → ∀ k, s.send k ≠ .absent → s.send k ≠ .done →
    k = s.conns ∧ (s.sendHandle = some k ∨ s.accept = .assignSend)
  stops : ∀ i q, s.call i = .stopping q → q.Late → s.accept = .done
  acceptHandle : s.acceptHandle = false → s.accept = .done
  lock : ∀ k, s.queueLock = some k ↔ (s.send k).Holds
  asleep : ∀ k ∈ s.sleepers, s.send k = .lock
  handles : HandlesAt s s.accept
  point : PointAt s s.accept

theorem threads_start : Threads .start where
  recv _ _ h := absurd rfl h
  send _ _ h := absurd rfl h
  stops _ _ h := by cases h
  acceptHandle h := by cases h
  lock k := ⟨(fun h => by cases h), False.elim⟩
  asleep _ h := absurd h List.not_mem_nil
  handles := trivial
  point h := absurd h (by decide)

section Lowering

variable {s s' : Sys}

theorem PointAt.mono {pc : AcceptPc} (h : PointAt s pc) (hconns : s'.conns = s.conns)
    (hr : pc = .done ∨ s'.recvHandle = s.recvHandle) (hc : s'.connected = true → s.connected = true) :
    PointAt s' pc := by
  have hconn : s.connected = false → s'.connected = false := by
    intro h
    cases hc' : s'.connected with
    | false => rfl
    | true => rw [hc hc'] at h; cases h
  rcases hr with rfl | hr
  · trivial
  · cases pc with
    | closing pc =>
      cases pc with
      | storeConnected => simpa only [PointAt, hr, hconns] using h
      | closeClient | joinRecv => exact ⟨hconn h.1, by simpa only [hr, hconns] using h.2⟩
      | joinSend | clearQueue => exact hconn h
    | loop | poll | test => simpa only [PointAt, hr, hconns] using h
    | storeFd => exact hconn h
    | storeConnected => exact ⟨hconn h.1, hconns ▸ h.2⟩
    | spawnRecv | assignRecv => simpa only [PointAt, hconns] using h
    | spawnSend | assignSend => simpa only [PointAt, hr, hconns] using h
    | done => trivial

/-- A handle is only given up for a thread that is done, so a thread that runs keeps its own. -/
theorem Threads.recv_lowered (h : Threads s) (hl : Lowered s s') (hpc : s.accept ≠ .done) {k : Nat}
    (h1 : s.recv k ≠ .absent) (h2 : s.recv k ≠ .done) : s'.recvHandle = s.recvHandle := by
  rcases hl.recvHandle with hr | ⟨hr, hdone⟩
  · exact hr
  · rcases (h.recv hpc k h1 h2).2 with hk | hk
    · exact absurd (hdone k hk) h2
    · have hhandles := h.handles
      rw [hk] at hhandles
      rw [hr, hhandles.1]

theorem Threads.send_lowered (h : Threads s) (hl : Lowered s s') (hpc : s.accept ≠ .done) {k : Nat}
    (h1 : s.send k ≠ .absent) (h2 : s.send k ≠ .done) : s'.sendHandle = s.sendHandle := by
  rcases hl.sendHandle with hr | ⟨hr, hdone⟩
  · exact hr
  · rcases (h.send hpc k h1 h2).2 with hk | hk
    · exact absurd (hdone k hk) h2
    · have hhandles := h.handles
      rw [hk] at hhandles
      exact hr.trans (show s.sendHandle = none from hhandles).symm

/-- No receive thread runs while the next client is being assigned. -/
theorem Threads.recv_idle (h : Threads s) (ha : s.accept ≠ .done) (hassign : s.accept ≠ .assignRecv)
    (hnone : s.recvHandle = none) (k : Nat) : s.recv k = .absent ∨ s.recv k = .done := by
  by_contra hnot
  rw [not_or] at hnot
  have hr := (h.recv ha k hnot.1 hnot.2).2
  simp [hassign, hnone] at hr

/-- Nor a send thread, up to its own start. -/
theorem Threads.send_idle (h : Threads s) (ha : s.accept ≠ .done) (hassign : s.accept ≠ .assignSend)
    (hnone : s.sendHandle = none) (k : Nat) : s.send k = .absent ∨ s.send k = .done := by
  by_contra hnot
  rw [not_or] at hnot
  have hr := (h.send ha k hnot.1 hnot.2).2
  simp [hassign, hnone] at hr

theorem not_holds_of_idle {pc : SendPc} (h : pc = .absent ∨ pc = .done) : ¬ pc.Holds := by
  rcases h with rfl | rfl <;> exact id

/-- `close_connection` and `stop`. Before the accept thread is done they keep the receive
thread's handle. -/
theorem Threads.lowered (h : Threads s) (hl : Lowered s s') (hr : s.accept = .done ∨ s'.recvHandle = s.recvHandle) :
    Threads s' where
  recv hpc k h1 h2 := by
    rw [hl.accept] at hpc
    rw [hl.recv] at h1 h2
    rw [hl.conns, hl.accept, h.recv_lowered hl hpc h1 h2]
    exact h.recv hpc k h1 h2
  send hpc k h1 h2 := by
    rw [hl.accept] at hpc
    rw [hl.send] at h1 h2
    rw [hl.conns, hl.accept, h.send_lowered hl hpc h1 h2]
    exact h.send hpc k h1 h2
  stops i q hq hlate := by
    rw [hl.call] at hq
    rw [hl.accept]
    exact h.stops i q hq hlate
  acceptHandle hh := by
    rw [hl.accept]
    rcases hl.acceptHandle with ha | ha
    · exact h.acceptHandle (ha ▸ hh)
    · exact ha
  lock k := by
    rw [hl.queueLock, hl.send]
    exact h.lock k
  asleep k hk := by
    rw [hl.send]
    rcases hl.sleepers with hs | hs <;> rw [hs] at hk
    · exact h.asleep k hk
    · exact absurd hk List.not_mem_nil
  handles := by
    rw [hl.accept]
    exact h.handles.mono hl.recvHandle_eq hl.sendHandle_eq
  point := by
    rw [hl.accept]
    exact h.point.mono hl.conns hr hl.connected

end Lowering

/-! ## One step -/

section Steps

variable {s s' : Sys}

theorem Threads.setRecv (h : Threads s) {k : Nat} (pc : RecvPc) (h1 : s.recv k ≠ .absent) (h2 : s.recv k ≠ .done) :
    Threads (s.setRecv k pc) :=
  { h with
    recv := fun hpc j hj1 hj2 => by
      simp only [Sys.setRecv] at hj1 hj2 ⊢
      by_cases hjk : j = k
      · subst hjk
        exact h.recv hpc j h1 h2
      · rw [Function.update_of_ne hjk] at hj1 hj2
        exact h.recv hpc j hj1 hj2 }

theorem Threads.recvStep (h : Threads s) {k : Nat} {out : RecvOut} (hs : s.recvStep k out = some s') : Threads s' := by
  obtain ⟨pc, t, hm, rfl⟩ := recvStep_cases hs
  have hl := hm.lowered
  have hhandle : s.accept = .done ∨ t.recvHandle = s.recvHandle := by
    by_cases hpc : s.accept = .done
    · exact .inl hpc
    · exact .inr (h.recv_lowered hl hpc hm.started hm.running)
  exact (h.lowered hl hhandle).setRecv pc (by rw [hl.recv]; exact hm.started) (by rw [hl.recv]; exact hm.running)

/-- Who holds the lock of the queue after a step of send thread `k`. -/
theorem Threads.lock_moves (h : Threads s) {k : Nat} {pc : SendPc} {queue : List Msg} {queueLock : Option Nat}
    {sleepers : List Nat} {sent : List (Nat × Msg)} (hm : SendMoves s k pc queue queueLock sleepers sent) (j : Nat) :
    queueLock = some j ↔ (Function.update s.send k pc j).Holds := by
  have hlock := h.lock j
  have hself := h.lock k
  by_cases hj : j = k
  · subst hj
    rw [Function.update_self]
    rcases hm.queueLock with ⟨rfl, hiff⟩ | ⟨rfl, -, hnot⟩ | ⟨rfl, -, hpc, -⟩
    · rw [hlock, hiff]
    · exact ⟨(fun he => by cases he), fun hp => absurd hp hnot⟩
    · exact ⟨fun _ => hpc, fun _ => rfl⟩
  · rw [Function.update_of_ne hj, ← hlock]
    rcases hm.queueLock with ⟨rfl, -⟩ | ⟨rfl, hold, -⟩ | ⟨rfl, hfree, -, -⟩
    · exact Iff.rfl
    · rw [hself.mpr hold, Option.some.injEq]
      exact ⟨(fun he => by cases he), fun he => absurd he.symm hj⟩
    · rw [hfree, Option.some.injEq]
      exact ⟨fun he => absurd he.symm hj, (fun he => by cases he)⟩

theorem Threads.sendStep (h : Threads s) {k : Nat} {out : SendOut} (hs : s.sendStep k out = some s') : Threads s' := by
  obtain ⟨pc, queue, queueLock, sleepers, sent, hm, rfl⟩ := sendStep_cases hs
  refine { h with
    send := fun hpc j hj1 hj2 => ?_, lock := h.lock_moves hm, asleep := fun j hj => ?_
    handles := h.handles.mono (.inl rfl) (.inl rfl), point := h.point.mono rfl (.inr rfl) id }
  · simp only [Sys.setSend] at hj1 hj2 ⊢
    by_cases hjk : j = k
    · subst hjk
      exact h.send hpc j hm.started hm.running
    · rw [Function.update_of_ne hjk] at hj1 hj2
      exact h.send hpc j hj1 hj2
  · simp only [Sys.setSend]
    rcases hm.sleepers with rfl | ⟨rfl, rfl, -⟩
    · have hjk : j ≠ k := fun he => by
        subst he
        exact hm.awake hj
      rw [Function.update_of_ne hjk]
      exact h.asleep j hj
    · by_cases hjk : j = k
      · rw [hjk, Function.update_self]
      · rw [Function.update_of_ne hjk]
        exact h.asleep j (by simpa [hjk] using hj)

/-- A call moves on; it joins threads only when the accept thread is done. -/
theorem Threads.setCall (h : Threads s) {i : Nat} {pc : CallPc}
    (hstop : ∀ q, pc = .stopping q → q.Late → s.accept = .done) : Threads (s.setCall i pc) :=
  { h with
    stops := fun j q hj => by
      simp only [Sys.setCall] at hj
      by_cases hji : j = i
      · subst hji
        rw [Function.update_self] at hj
        exact hstop q hj
      · rw [Function.update_of_ne hji] at hj
        exact h.stops j q hj }

/-- Whoever is woken, and whatever is in the queue. -/
theorem Threads.setQueue (h : Threads s) (queue : List Msg) {sleepers : List Nat} (hsub : sleepers ⊆ s.sleepers) :
    Threads { s with queue := queue, sleepers := sleepers } :=
  { h with
    asleep := fun k hk => h.asleep k (hsub hk), handles := h.handles.mono (.inl rfl) (.inl rfl)
    point := h.point.mono rfl (.inr rfl) id }

theorem Threads.callStop (h : Threads s) {i : Nat} (hs : s.callStop i = some s') : Threads s' := by
  obtain ⟨t, pc, rfl, hl, -, -, hhandle, hlate⟩ := callStop_cases hs
  have hkeep : s.accept = .done ∨ t.recvHandle = s.recvHandle := by
    rcases hhandle with hr | ⟨q, hq, hl'⟩
    · exact .inr hr
    · exact .inl (h.stops i q hq hl')
  refine (h.lowered hl hkeep).setCall fun q hq hq' => ?_
  rw [hl.accept]
  rcases hlate q hq hq' with ⟨q₀, h₀, hl₀⟩ | hdone | hhandle
  · exact h.stops i q₀ h₀ hl₀
  · exact hdone
  · exact h.acceptHandle hhandle

/-- The accept thread moves on, with no thread being assigned. -/
theorem Threads.setAccept (h : Threads s) {pc : AcceptPc} (hassign : s.accept ≠ .assignRecv ∧ s.accept ≠ .assignSend)
    (hdone : s.accept ≠ .done) (hh : HandlesAt s pc) (hp : PointAt s pc) : Threads { s with accept := pc } :=
  { h with
    recv := fun _ k h1 h2 => by
      obtain ⟨hk, hr | hr⟩ := h.recv hdone k h1 h2
      · exact ⟨hk, .inl hr⟩
      · exact absurd hr hassign.1
    send := fun _ k h1 h2 => by
      obtain ⟨hk, hr | hr⟩ := h.send hdone k h1 h2
      · exact ⟨hk, .inl hr⟩
      · exact absurd hr hassign.2
    stops := fun i q hq hlate => absurd (h.stops i q hq hlate) hdone
    acceptHandle := fun ha => absurd (h.acceptHandle ha) hdone
    handles := hh.mono (.inl rfl) (.inl rfl)
    point := hp.mono rfl (.inr rfl) id }

/-- `close_connection` on the accept thread joins one thread after the other. -/
theorem Threads.closing (h : Threads s) {out : AcceptOut} {pc : ClosePc} (hpc : s.accept = .closing pc)
    (hs : s.acceptStep out = some s') : Threads s' := by
  obtain ⟨t, rfl, hl, -, hconn, hkeep, -, hrecv, hsend, -⟩ := closing_cases hpc hs
  have hdone : s.accept ≠ .done := by simp [hpc]
  have hhandles := h.handles.mono hl.recvHandle_eq hl.sendHandle_eq
  have hpoint := h.point
  rw [hpc] at hhandles hpoint
  have hoff : s.connected = false → t.connected = false := fun hs' =>
    eq_false_of_ne_true fun ht => by rw [hl.connected ht] at hs'; cases hs'
  -- Joining gives up the handle of a thread that is done, so `lowered` does not apply as it is.
  have ht : Threads { t with accept := .done } :=
    { recv := fun hne => absurd rfl hne, send := fun hne => absurd rfl hne, stops := fun _ _ _ _ => rfl
      acceptHandle := fun _ => rfl
      lock := fun k => by rw [hl.queueLock, hl.send]; exact h.lock k
      asleep := fun k hk => by
        rw [hl.send]
        rcases hl.sleepers with he | he <;> simp only [he] at hk
        · exact h.asleep k hk
        · exact absurd hk List.not_mem_nil
      handles := trivial, point := trivial }
  refine { ht with
    recv := fun _ k h1 h2 => ?_, send := fun _ k h1 h2 => ?_, stops := fun i q hq hlate => ?_
    acceptHandle := fun ha => ?_, handles := ?_, point := ?_ }
  · simp only [hl.recv] at h1 h2
    obtain ⟨hk, hr | hr⟩ := h.recv hdone k h1 h2
    · exact ⟨hl.conns ▸ hk, .inl (h.recv_lowered hl hdone h1 h2 ▸ hr)⟩
    · simp [hpc] at hr
  · simp only [hl.send] at h1 h2
    obtain ⟨hk, hr | hr⟩ := h.send hdone k h1 h2
    · exact ⟨hl.conns ▸ hk, .inl (h.send_lowered hl hdone h1 h2 ▸ hr)⟩
    · simp [hpc] at hr
  · simp only [hl.call] at hq
    exact absurd (h.stops i q hq hlate) hdone
  · rcases hl.acceptHandle with he | he
    · exact absurd (h.acceptHandle (he ▸ ha)) hdone
    · exact absurd he hdone
  · cases pc with
    | storeConnected | closeClient => trivial
    | joinRecv => exact hrecv rfl
    | joinSend => exact ⟨hhandles, hsend rfl⟩
    | clearQueue => exact hhandles
  · cases pc with
    | storeConnected =>
      refine ⟨hconn rfl, fun hpos => ?_⟩
      simp only [hkeep (.inl rfl), hl.conns] at hpos ⊢
      exact hpoint hpos
    | closeClient =>
      refine ⟨hoff hpoint.1, fun hpos => ?_⟩
      simp only [hkeep (.inr rfl), hl.conns] at hpos ⊢
      exact hpoint.2 hpos
    | joinRecv => exact hoff hpoint.1
    | joinSend | clearQueue => exact hoff hpoint

theorem Threads.acceptStep (h : Threads s) {out : AcceptOut} (hok : TestsClosed s)
    (hs : s.acceptStep out = some s') : Threads s' := by
  have hhandles := h.handles
  have hpoint := h.point
  cases hpc : s.accept with
  | closing pc => exact h.closing hpc hs
  | done =>
    simp only [Sys.acceptStep, hpc] at hs
    cases hs
  | loop | poll =>
    rw [hpc] at hpoint
    obtain ⟨pc, rfl, hnext⟩ := waiting_cases (by simp [hpc]) hs
    rcases hnext with rfl | rfl | rfl | rfl
    · exact h.setAccept (by simp [hpc]) (by simp [hpc]) trivial hpoint
    · exact h.setAccept (by simp [hpc]) (by simp [hpc]) trivial hpoint
    · exact h.setAccept (by simp [hpc]) (by simp [hpc]) trivial hpoint
    · exact h.setAccept (by simp [hpc]) (by simp [hpc]) trivial trivial
  | test =>
    rw [hpc] at hpoint
    simp only [Sys.acceptStep, hpc] at hs
    cases hs
    by_cases hconn : s.connected = true
    · rw [if_pos hconn]
      exact h.setAccept (by simp [hpc]) (by simp [hpc]) trivial hpoint
    · rw [if_neg hconn]
      exact h.setAccept (by simp [hpc]) (by simp [hpc]) ((hok hpc).resolve_left hconn) (eq_false_of_ne_true hconn)
  | storeFd =>
    have hdone : s.accept ≠ .done := by simp [hpc]
    rw [hpc] at hhandles hpoint
    simp only [Sys.acceptStep, hpc] at hs
    cases hs
    -- No thread of an earlier client is left.
    exact { h with
      recv := fun _ k h1 h2 => absurd (h.recv_idle hdone (by simp [hpc]) hhandles.1 k) (not_or.mpr ⟨h1, h2⟩)
      send := fun _ k h1 h2 => absurd (h.send_idle hdone (by simp [hpc]) hhandles.2 k) (not_or.mpr ⟨h1, h2⟩)
      stops := fun i q hq hlate => absurd (h.stops i q hq hlate) hdone
      acceptHandle := fun ha => absurd (h.acceptHandle ha) hdone
      handles := hhandles, point := ⟨hpoint, Nat.le_add_left ..⟩ }
  | storeConnected =>
    rw [hpc] at hhandles hpoint
    simp only [Sys.acceptStep, hpc] at hs
    cases hs
    have hmove : Threads { s with accept := .spawnRecv } :=
      h.setAccept (by simp [hpc]) (by simp [hpc]) hhandles hpoint.2
    exact { hmove with handles := hhandles, point := hpoint.2 }
  | spawnRecv =>
    rw [hpc] at hhandles hpoint
    simp only [Sys.acceptStep, hpc] at hs
    cases hs
    have hmove : Threads { s with accept := .assignRecv } := h.setAccept (by simp [hpc]) (by simp [hpc]) hhandles hpoint
    refine { hmove with handles := hhandles, point := hpoint, recv := fun _ k h1 h2 => ⟨?_, .inr rfl⟩ }
    by_cases hk : k = s.conns
    · exact hk
    · simp only [Function.update_of_ne hk] at h1 h2
      exact (h.recv (by simp [hpc]) k h1 h2).1
  | assignRecv =>
    have hdone : s.accept ≠ .done := by simp [hpc]
    rw [hpc] at hhandles hpoint
    simp only [Sys.acceptStep, hpc, if_pos hhandles.1] at hs
    cases hs
    exact { h with
      handles := hhandles.2
      point := ⟨hpoint, rfl⟩
      recv := fun _ k h1 h2 => by
        obtain ⟨rfl, -⟩ := h.recv hdone k h1 h2
        exact ⟨rfl, .inl rfl⟩
      send := fun _ k h1 h2 => by simpa [hpc] using h.send hdone k h1 h2
      stops := fun i q hq hlate => absurd (h.stops i q hq hlate) hdone
      acceptHandle := fun ha => absurd (h.acceptHandle ha) hdone }
  | spawnSend =>
    rw [hpc] at hhandles hpoint
    have hidle := h.send_idle (by simp [hpc]) (by simp [hpc]) hhandles
    simp only [Sys.acceptStep, hpc] at hs
    cases hs
    have hmove : Threads { s with accept := .assignSend } := h.setAccept (by simp [hpc]) (by simp [hpc]) hhandles hpoint
    refine { hmove with
      handles := hhandles, point := hpoint, send := fun _ k h1 h2 => ⟨?_, .inr rfl⟩, lock := fun k => ?_
      asleep := fun k hk => ?_ }
    · by_cases hk : k = s.conns
      · exact hk
      · simp only [Function.update_of_ne hk] at h1 h2
        exact (h.send (by simp [hpc]) k h1 h2).1
    · refine (h.lock k).trans (iff_of_false (not_holds_of_idle (hidle k)) ?_)
      dsimp only
      by_cases hk : k = s.conns
      · rw [hk, Function.update_self]
        exact id
      · rw [Function.update_of_ne hk]
        exact not_holds_of_idle (hidle k)
    · have hlock := h.asleep k hk
      rcases hidle k with hi | hi <;> rw [hi] at hlock <;> cases hlock
  | assignSend =>
    have hdone : s.accept ≠ .done := by simp [hpc]
    rw [hpc] at hhandles hpoint
    have hnone : s.sendHandle = none := hhandles
    simp only [Sys.acceptStep, hpc, if_pos hnone] at hs
    cases hs
    exact { h with
      handles := trivial
      point := fun _ => hpoint.2
      recv := fun _ k h1 h2 => by simpa [hpc] using h.recv hdone k h1 h2
      send := fun _ k h1 h2 => by
        obtain ⟨rfl, -⟩ := h.send hdone k h1 h2
        exact ⟨rfl, .inl rfl⟩
      stops := fun i q hq hlate => absurd (h.stops i q hq hlate) hdone
      acceptHandle := fun ha => absurd (h.acceptHandle ha) hdone }

theorem threads_step {size : Nat} {l : Label} (h : Threads s) (hok : ClosesFirst s l)
    (hs : (machine size).step s l = some s') : Threads s' := by
  simp only [machine, Sys.step] at hs
  split at hs
  · cases l with
    | accept out => exact h.acceptStep (hok out rfl) hs
    | recv k out => exact h.recvStep hs
    | send k out => exact h.sendStep hs
    | callbackStop k =>
      obtain ⟨hpc, rfl⟩ := callbackStop_cases hs
      exact h.setRecv _ (by simp [hpc]) (by simp [hpc])
    | callSend i data =>
      rcases callSend_cases hs with rfl | ⟨-, rfl⟩
      · exact h
      · exact h.setCall fun q hq => by cases hq
    | enqueue i =>
      obtain ⟨msg, c, -, -, ⟨-, rfl⟩ | ⟨-, rfl⟩⟩ := enqueue_cases hs
      · exact h.setCall fun q hq => by cases hq
      · have hcall : Threads (s.setCall i .notifying) := h.setCall fun q hq => by cases hq
        exact hcall.setQueue (s.queue ++ [msg]) (List.Subset.refl s.sleepers)
    | notify i woken =>
      obtain ⟨-, sleepers, hsub, rfl⟩ := notify_cases hs
      have hcall : Threads (s.setCall i .idle) := h.setCall fun q hq => by cases hq
      exact hcall.setQueue s.queue hsub
    | spurious k =>
      obtain ⟨sleepers, hsub, rfl⟩ := spurious_cases hs
      exact h.setQueue s.queue hsub
    | callStop i => exact h.callStop hs
  · cases hs

end Steps

end MdInfoSet.L5.TcpServer
