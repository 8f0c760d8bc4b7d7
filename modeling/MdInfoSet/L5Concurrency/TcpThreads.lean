import MdInfoSet.L5Concurrency.TcpHandles

/-!
# Disconnects of `TCPServer`

`close_connection` joins the receive thread, and the receive thread calls it when `recv`
returns 0 or fails. What keeps the process alive is that this does not happen to a receive
thread `m_recv_thread` is joinable for, and that a client is not handled while the threads
of the one before are not joined.

`close_connection` also joins the send thread, and does not wake it. The next client gets its
threads only if that one is not waiting for a message when `m_connected` is cleared
(`asleep_never_closes`).
-/
namespace MdInfoSet.L5.TcpThreads

open MdInfoSet.L5.TcpServer

/-- A step of one of the threads of the server. -/
def Own (_ : Sys) : Label → Prop
  | .accept _ | .recv _ _ | .send _ _ => True
  | .callbackStop _ | .callSend _ _ | .enqueue _ | .notify _ _ | .spurious _ | .callStop _ => False

/-- The accept thread is at a join of `close_connection`, or behind them. -/
def Joins : AcceptPc → Prop
  | .closing .joinRecv | .closing .joinSend | .closing .clearQueue => True
  | _ => False

/-- The process has not terminated, every client that was handled got a receive and a send
thread of its own, and where the accept thread waits for the threads of the client before,
these bring it to the next one by their own steps. -/
structure Survives (size : Nat) (s : Sys) : Prop where
  alive : s.crash = none
  served : ∀ k, 1 ≤ k → k ≤ s.conns → s.accept = .loop ∨ s.accept = .poll ∨ s.accept = .test ∨ s.accept = .done →
    s.recv k ≠ .absent ∧ s.send k ≠ .absent
  closes : Joins s.accept → (machine size).Inevitable Own (fun t => t.accept = .storeFd) s

/-- The send thread sleeps, or has seen the flags and the empty queue and is about to. -/
def Asleep (s : Sys) (k : Nat) : Prop := k ∈ s.sleepers ∨ s.send k = .sleep

instance (s : Sys) (k : Nat) : Decidable (Asleep s k) := by
  unfold Asleep
  infer_instance

/-- The condition on a step. A receive thread gets 0 or an error only before it is stored in
`m_recv_thread`, and then is past its join test when it is stored; the callback does not stop
a running server; a client is handled without `close_connection` only when nothing is
joinable; and when the accept thread closes a connection, its send thread does not wait for a
message and its receive thread is not in `recv`. -/
def Spares (s : Sys) : Label → Prop
  | .accept _ => TestsClosed s ∧ (s.accept = .assignRecv → ¬ (s.recv s.conns).Closing) ∧
      (s.accept = .closing .storeConnected → ∀ k ∈ s.sendHandle, ¬ Asleep s k) ∧
      (s.accept = .closing .closeClient → ∀ k ∈ s.recvHandle, ¬ (s.recv k).Receives)
  | .recv k out => (s.recv k).Receives → out = .zero ∨ out = .error → s.recvHandle ≠ some k
  | .callbackStop _ => s.running = false
  | .send _ _ | .callSend _ _ | .enqueue _ | .notify _ _ | .spurious _ | .callStop _ => True

instance (s : Sys) (l : Label) : Decidable (Spares s l) := by
  cases l <;> unfold Spares <;> infer_instance

/-- What holds in a run of such steps, beside `Threads`. -/
structure Spared (s : Sys) : Prop where
  alive : s.crash = none
  closing : ∀ k, (s.recv k).Closing → s.recvHandle ≠ some k
  stopping : ∀ k q, s.recv k = .stopping q → q = .loadRunning ∧ s.running = false
  recvHandle : ∀ k, s.recvHandle = some k → 1 ≤ k ∧ k ≤ s.conns
  sendHandle : ∀ k, s.sendHandle = some k → 1 ≤ k ∧ k ≤ s.conns
  recvThread : ∀ k, 1 ≤ k → k ≤ s.conns → (k = s.conns → s.accept ≠ .storeConnected ∧ s.accept ≠ .spawnRecv) →
    s.recv k ≠ .absent
  sendThread : ∀ k, 1 ≤ k → k ≤ s.conns → (k = s.conns → s.accept ≠ .storeConnected ∧ s.accept ≠ .spawnRecv ∧
    s.accept ≠ .assignRecv ∧ s.accept ≠ .spawnSend) → s.send k ≠ .absent
  /-- Behind the clearing of `m_connected` no send thread waits. -/
  awake : ∀ pc, s.accept = .closing pc → pc ≠ .storeConnected → s.sleepers = [] ∧ ∀ k, s.send k ≠ .sleep
  /-- Behind the closing of the socket no receive thread is in `recv`. -/
  deaf : Joins s.accept → s.clientFd = none ∧ ∀ k, ¬ (s.recv k).Receives

structure Inv (s : Sys) : Prop extends Threads s, Spared s

theorem inv_start : Inv .start where
  toThreads := threads_start
  alive := rfl
  closing _ h := h.elim
  stopping _ _ h := by cases h
  recvHandle _ h := by cases h
  sendHandle _ h := by cases h
  recvThread k h1 h2 := absurd h2 (by simp only [Sys.start]; omega)
  sendThread k h1 h2 := absurd h2 (by simp only [Sys.start]; omega)
  awake _ h := by cases h
  deaf h := h.elim

section Steps

variable {s s' : Sys}

/-! ## The threads that are closed -/

/-- Taking things down keeps it, as long as nothing crashes. -/
theorem Spared.lowered (h : Spared s) (hl : Lowered s s') (hc : s'.crash = s.crash) : Spared s' where
  alive := hc.trans h.alive
  closing k hk := by
    rw [hl.recv] at hk
    rcases hl.recvHandle_eq with hr | hr <;> rw [hr]
    · exact h.closing k hk
    · simp
  stopping k q hk := by
    rw [hl.recv] at hk
    obtain ⟨hq, hrun⟩ := h.stopping k q hk
    exact ⟨hq, eq_false_of_ne_true fun hs => by rw [hl.running hs] at hrun; cases hrun⟩
  recvHandle k hk := by
    rw [hl.conns]
    rcases hl.recvHandle_eq with hr | hr <;> rw [hr] at hk
    · exact h.recvHandle k hk
    · cases hk
  sendHandle k hk := by
    rw [hl.conns]
    rcases hl.sendHandle_eq with hr | hr <;> rw [hr] at hk
    · exact h.sendHandle k hk
    · cases hk
  recvThread k h1 h2 hpc := by
    rw [hl.conns] at h2 hpc
    rw [hl.accept] at hpc
    rw [hl.recv]
    exact h.recvThread k h1 h2 hpc
  sendThread k h1 h2 hpc := by
    rw [hl.conns] at h2 hpc
    rw [hl.accept] at hpc
    rw [hl.send]
    exact h.sendThread k h1 h2 hpc
  awake pc hpc hne := by
    rw [hl.accept] at hpc
    rw [hl.send]
    obtain ⟨hnone, hall⟩ := h.awake pc hpc hne
    exact ⟨hl.sleepers.elim (·.trans hnone) id, hall⟩
  deaf hj := by
    rw [hl.accept] at hj
    rw [hl.recv]
    obtain ⟨hfd, hall⟩ := h.deaf hj
    exact ⟨hl.clientFd.elim (·.trans hfd) id, hall⟩

theorem Spared.setRecv (h : Spared s) {k : Nat} {pc : RecvPc} (hpc : pc ≠ .absent)
    (hclosing : pc.Closing → s.recvHandle ≠ some k)
    (hstop : ∀ q, pc = .stopping q → q = .loadRunning ∧ s.running = false)
    (hdeaf : Joins s.accept → ¬ pc.Receives) : Spared (s.setRecv k pc) :=
  { h with
    closing := fun j hj => by
      simp only [Sys.setRecv] at hj ⊢
      by_cases hjk : j = k
      · subst hjk
        rw [Function.update_self] at hj
        exact hclosing hj
      · rw [Function.update_of_ne hjk] at hj
        exact h.closing j hj
    stopping := fun j q hj => by
      simp only [Sys.setRecv] at hj ⊢
      by_cases hjk : j = k
      · subst hjk
        rw [Function.update_self] at hj
        exact hstop q hj
      · rw [Function.update_of_ne hjk] at hj
        exact h.stopping j q hj
    recvThread := fun j h1 h2 hpc' => by
      simp only [Sys.setRecv]
      by_cases hjk : j = k
      · subst hjk
        rwa [Function.update_self]
      · rw [Function.update_of_ne hjk]
        exact h.recvThread j h1 h2 hpc'
    deaf := fun hj => by
      refine ⟨(h.deaf hj).1, fun j => ?_⟩
      simp only [Sys.setRecv]
      by_cases hjk : j = k
      · subst hjk
        rw [Function.update_self]
        exact hdeaf hj
      · rw [Function.update_of_ne hjk]
        exact (h.deaf hj).2 j }

theorem Spared.recvStep (h : Spared s) {k : Nat} {out : RecvOut} (hok : Spares s (.recv k out))
    (hs : s.recvStep k out = some s') : Spared s' := by
  obtain ⟨pc, t, hm, rfl⟩ := recvStep_cases hs
  have hl := hm.lowered
  have halive : t.crash = s.crash := by
    rcases hm.crash with hc | ⟨hself, hpc | hpc⟩
    · exact hc
    · exact absurd hself (h.closing k (by simp [hpc, RecvPc.Closing]))
    · cases (h.stopping k _ hpc).1
  refine (h.lowered hl halive).setRecv hm.present (fun hpc => ?_) (fun q hq => ?_) fun hj hpc => ?_
  · have hhandle : s.recvHandle ≠ some k := by
      rcases hm.closing hpc with hc | ⟨hr, hout⟩
      · exact h.closing k hc
      · exact hok hr hout
    rcases hl.recvHandle_eq with hr | hr <;> rw [hr]
    · exact hhandle
    · simp
  · obtain ⟨q₀, hq₀, hrun⟩ := hm.stopping q hq
    obtain ⟨hfirst, hoff⟩ := h.stopping k q₀ hq₀
    rw [hrun hfirst] at hoff
    cases hoff
  · rw [hl.accept] at hj
    exact hm.receives hpc (h.deaf hj).1

/-- `m_connected` has been cleared. -/
theorem connected_of_closing (h : Threads s) {pc : ClosePc} (hpc : s.accept = .closing pc)
    (hne : pc ≠ .storeConnected) : s.connected = false := by
  have hpoint := h.point
  rw [hpc] at hpoint
  cases pc with
  | storeConnected => exact absurd rfl hne
  | closeClient | joinRecv => exact hpoint.1
  | joinSend | clearQueue => exact hpoint

/-- A send thread goes to sleep only while `m_connected` is set. -/
theorem Inv.sendStep (h : Inv s) {k : Nat} {out : SendOut} (hs : s.sendStep k out = some s') : Spared s' := by
  obtain ⟨pc, queue, queueLock, sleepers, sent, hm, rfl⟩ := sendStep_cases hs
  refine { h.toSpared with sendThread := fun j h1 h2 hpc => ?_, awake := fun q hq hne => ?_ }
  · simp only [Sys.setSend]
    by_cases hjk : j = k
    · subst hjk
      rw [Function.update_self]
      exact hm.present
    · rw [Function.update_of_ne hjk]
      exact h.sendThread j h1 h2 hpc
  · obtain ⟨hnone, hall⟩ := h.awake q hq hne
    refine ⟨?_, fun j => ?_⟩
    · rcases hm.sleepers with rfl | ⟨-, -, hsleep⟩
      · exact hnone
      · exact absurd hsleep (hall k)
    · simp only [Sys.setSend]
      by_cases hjk : j = k
      · subst hjk
        rw [Function.update_self]
        intro hpc
        have hoff := connected_of_closing h.toThreads hq hne
        rw [hm.sleep hpc] at hoff
        cases hoff
      · rw [Function.update_of_ne hjk]
        exact hall j

/-- A call moves on, and wakes whom it wakes. -/
theorem Spared.setCall (h : Spared s) (i : Nat) (pc : CallPc) (queue : List Msg) {sleepers : List Nat}
    (hsub : sleepers ⊆ s.sleepers) : Spared { s.setCall i pc with queue := queue, sleepers := sleepers } :=
  { h with
    awake := fun q hq hne => by
      obtain ⟨hnone, hall⟩ := h.awake q hq hne
      exact ⟨List.eq_nil_of_subset_nil (hnone ▸ hsub), hall⟩ }

/-- The accept thread moves on, but not within `close_connection`. -/
theorem Spared.setAccept (h : Spared s) {pc : AcceptPc} (hnext : ∀ q, pc = .closing q → q = .storeConnected)
    (hpc : s.accept ≠ .storeConnected ∧ s.accept ≠ .spawnRecv ∧ s.accept ≠ .assignRecv ∧ s.accept ≠ .spawnSend) :
    Spared { s with accept := pc } :=
  { h with
    recvThread := fun k h1 h2 _ => h.recvThread k h1 h2 fun _ => ⟨hpc.1, hpc.2.1⟩
    sendThread := fun k h1 h2 _ => h.sendThread k h1 h2 fun _ => hpc
    awake := fun q hq hne => absurd (hnext q hq) hne
    deaf := fun hj => by
      cases pc with
      | closing q =>
        cases hnext q rfl
        exact hj.elim
      | loop | poll | test | storeFd | storeConnected | spawnRecv | assignRecv | spawnSend | assignSend | done =>
        exact hj.elim }

/-- The only send thread that can be asleep is that of the connection being closed. -/
theorem awake_of_spares (h : Inv s) (hpc : s.accept = .closing .storeConnected)
    (hok : ∀ k ∈ s.sendHandle, ¬ Asleep s k) : s.sleepers = [] ∧ ∀ k, s.send k ≠ .sleep := by
  have hdone : s.accept ≠ .done := by simp [hpc]
  have hawake : ∀ k, ¬ Asleep s k := by
    intro k hk
    have hruns : s.send k ≠ .absent ∧ s.send k ≠ .done := by
      rcases hk with hk | hk
      · simp [h.asleep k hk]
      · simp [hk]
    rcases (h.send hdone k hruns.1 hruns.2).2 with hhandle | hassign
    · exact hok k hhandle hk
    · simp [hpc] at hassign
  exact ⟨List.eq_nil_iff_forall_not_mem.mpr fun k hk => hawake k (.inl hk), fun k hk => hawake k (.inr hk)⟩

/-- The only receive thread that can be in `recv` is that of the connection being closed. -/
theorem deaf_of_spares (h : Inv s) (hpc : s.accept = .closing .closeClient)
    (hok : ∀ k ∈ s.recvHandle, ¬ (s.recv k).Receives) (k : Nat) : ¬ (s.recv k).Receives := by
  intro hk
  have hruns : s.recv k ≠ .absent ∧ s.recv k ≠ .done := by
    constructor <;> intro he <;> rw [he] at hk <;> exact hk
  rcases (h.recv (by simp [hpc]) k hruns.1 hruns.2).2 with hhandle | hassign
  · exact hok k hhandle hk
  · simp [hpc] at hassign

theorem Inv.closingStep (h : Inv s) {out : AcceptOut} {pc : ClosePc} (hpc : s.accept = .closing pc)
    (hok : Spares s (.accept out)) (hs : s.acceptStep out = some s') : Spared s' := by
  obtain ⟨t, rfl, hl, hc, -, -, hfd, -⟩ := closing_cases hpc hs
  have ht := h.toSpared.lowered hl hc
  have hmove : Spared { t with accept := .loop } := ht.setAccept (by simp) (by simp [hl.accept, hpc])
  cases pc with
  | storeConnected =>
    obtain ⟨hnone, hall⟩ := awake_of_spares h hpc (hok.2.2.1 hpc)
    exact { hmove with
      recvThread := fun k h1 h2 _ => hmove.recvThread k h1 h2 (by simp)
      sendThread := fun k h1 h2 _ => hmove.sendThread k h1 h2 (by simp)
      awake := fun _ _ _ => ⟨hl.sleepers.elim (·.trans hnone) id, by simpa only [hl.send] using hall⟩
      deaf := False.elim }
  | closeClient =>
    have hall := deaf_of_spares h hpc (hok.2.2.2 hpc)
    exact { hmove with
      recvThread := fun k h1 h2 _ => hmove.recvThread k h1 h2 (by simp)
      sendThread := fun k h1 h2 _ => hmove.sendThread k h1 h2 (by simp)
      awake := fun _ _ _ => ht.awake .closeClient (hl.accept.trans hpc) (by simp)
      deaf := fun _ => ⟨hfd rfl, by simpa only [hl.recv] using hall⟩ }
  | joinRecv | joinSend =>
    exact { hmove with
      recvThread := fun k h1 h2 _ => hmove.recvThread k h1 h2 (by simp)
      sendThread := fun k h1 h2 _ => hmove.sendThread k h1 h2 (by simp)
      awake := fun _ _ _ => ht.awake _ (hl.accept.trans hpc) (by simp)
      deaf := fun _ => ht.deaf (by rw [hl.accept, hpc]; trivial) }
  | clearQueue => exact ht.setAccept (by simp [ClosePc.next]) (by simp [hl.accept, hpc])

theorem Inv.acceptStep (h : Inv s) {out : AcceptOut} (hok : Spares s (.accept out))
    (hs : s.acceptStep out = some s') : Spared s' := by
  have hhandles := h.handles
  cases hpc : s.accept with
  | closing pc => exact h.closingStep hpc hok hs
  | done =>
    simp only [Sys.acceptStep, hpc] at hs
    cases hs
  | loop | poll =>
    obtain ⟨pc, rfl, hnext⟩ := waiting_cases (by simp [hpc]) hs
    refine h.toSpared.setAccept (fun q hq => ?_) (by simp [hpc])
    rcases hnext with rfl | rfl | rfl | rfl <;> cases hq
  | test =>
    simp only [Sys.acceptStep, hpc] at hs
    cases hs
    refine h.toSpared.setAccept (fun q hq => ?_) (by simp [hpc])
    split at hq <;> cases hq
    rfl
  | storeFd =>
    simp only [Sys.acceptStep, hpc] at hs
    cases hs
    have hmove : Spared { s with accept := .loop } := h.toSpared.setAccept (by simp) (by simp [hpc])
    rw [hpc] at hhandles
    refine { hmove with
      recvHandle := fun k hk => ?_, sendHandle := fun k hk => ?_, recvThread := fun k h1 h2 hk => ?_
      sendThread := fun k h1 h2 hk => ?_, awake := fun _ hq => (by cases hq), deaf := False.elim }
    · simp [hhandles.1] at hk
    · simp [hhandles.2] at hk
    · have hne : k ≠ s.conns + 1 := fun he => (hk he).1 rfl
      exact hmove.recvThread k h1 (by simp only at h2 ⊢; omega) (by simp)
    · have hne : k ≠ s.conns + 1 := fun he => (hk he).1 rfl
      exact hmove.sendThread k h1 (by simp only at h2 ⊢; omega) (by simp)
  | storeConnected =>
    simp only [Sys.acceptStep, hpc] at hs
    cases hs
    exact { h.toSpared with
      recvThread := fun k h1 h2 hk => h.recvThread k h1 h2 fun he => absurd rfl (hk he).2
      sendThread := fun k h1 h2 hk => h.sendThread k h1 h2 fun he => absurd rfl (hk he).2.1
      awake := fun _ hq => by cases hq
      deaf := False.elim }
  | spawnRecv =>
    simp only [Sys.acceptStep, hpc] at hs
    cases hs
    have hrecv : Spared (s.setRecv s.conns .loop) :=
      h.toSpared.setRecv (by simp) (by simp [RecvPc.Closing]) (by simp) (by simp [RecvPc.Receives])
    refine { hrecv with
      recvThread := fun k h1 h2 _ => ?_, sendThread := fun k h1 h2 hk => ?_
      awake := fun _ hq => (by cases hq), deaf := False.elim }
    · by_cases hkc : k = s.conns
      · subst hkc
        simp
      · exact hrecv.recvThread k h1 h2 fun he => absurd he hkc
    · exact h.sendThread k h1 h2 fun he => absurd rfl (hk he).2.2.1
  | assignRecv =>
    have hpoint := h.point
    rw [hpc] at hhandles hpoint
    simp only [Sys.acceptStep, hpc, if_pos hhandles.1] at hs
    cases hs
    exact { h.toSpared with
      closing := fun k hk he => by
        cases he
        exact hok.2.1 hpc hk
      recvHandle := fun k hk => by
        cases hk
        exact ⟨hpoint, le_rfl⟩
      recvThread := fun k h1 h2 _ => h.recvThread k h1 h2 (by simp [hpc])
      sendThread := fun k h1 h2 hk => h.sendThread k h1 h2 fun he => absurd rfl (hk he).2.2.2
      awake := fun _ hq => by cases hq
      deaf := False.elim }
  | spawnSend =>
    simp only [Sys.acceptStep, hpc] at hs
    cases hs
    refine { h.toSpared with
      recvThread := fun k h1 h2 _ => h.recvThread k h1 h2 (by simp [hpc]), sendThread := fun k h1 h2 _ => ?_
      awake := fun _ hq => (by cases hq), deaf := False.elim }
    by_cases hkc : k = s.conns
    · subst hkc
      simp
    · simp only [Function.update_of_ne hkc]
      exact h.sendThread k h1 h2 fun he => absurd he hkc
  | assignSend =>
    have hpoint := h.point
    rw [hpc] at hhandles hpoint
    have hnone : s.sendHandle = none := hhandles
    simp only [Sys.acceptStep, hpc, if_pos hnone] at hs
    cases hs
    exact { h.toSpared with
      sendHandle := fun k hk => by
        cases hk
        exact ⟨hpoint.1, le_rfl⟩
      recvThread := fun k h1 h2 _ => h.recvThread k h1 h2 (by simp [hpc])
      sendThread := fun k h1 h2 _ => h.sendThread k h1 h2 (by simp [hpc])
      awake := fun _ hq => by cases hq
      deaf := False.elim }

theorem inv_step {size : Nat} {l : Label} (h : Inv s) (hok : Spares s l)
    (hs : (machine size).step s l = some s') : Inv s' := by
  refine ⟨threads_step h.toThreads (fun out he => ?_) hs, ?_⟩
  · subst he
    exact hok.1
  · simp only [machine, Sys.step, if_pos h.alive] at hs
    cases l with
    | accept out => exact h.acceptStep hok hs
    | recv k out => exact h.toSpared.recvStep hok hs
    | send k out => exact h.sendStep hs
    | callbackStop k =>
      obtain ⟨-, rfl⟩ := callbackStop_cases hs
      refine h.toSpared.setRecv (by simp) (by simp [RecvPc.Closing]) (fun q hq => ?_) (by simp [RecvPc.Receives])
      cases hq
      exact ⟨rfl, hok⟩
    | callSend i data =>
      rcases callSend_cases hs with rfl | ⟨-, rfl⟩
      · exact h.toSpared
      · exact h.toSpared.setCall i _ s.queue (List.Subset.refl _)
    | enqueue i =>
      obtain ⟨msg, c, -, -, ⟨-, rfl⟩ | ⟨-, rfl⟩⟩ := enqueue_cases hs
      · exact h.toSpared.setCall i _ s.queue (List.Subset.refl _)
      · exact h.toSpared.setCall i _ _ (List.Subset.refl _)
    | notify i woken =>
      obtain ⟨-, sleepers, hsub, rfl⟩ := notify_cases hs
      exact h.toSpared.setCall i _ s.queue hsub
    | spurious k =>
      obtain ⟨sleepers, hsub, rfl⟩ := spurious_cases hs
      exact { h.toSpared with
        awake := fun q hq hne => by
          obtain ⟨hnone, hall⟩ := h.awake q hq hne
          exact ⟨List.eq_nil_of_subset_nil (hnone ▸ hsub), hall⟩ }
    | callStop i =>
      obtain ⟨t, pc, rfl, hl, hc, -⟩ := callStop_cases hs
      exact (h.toSpared.lowered hl hc).setCall i pc t.queue (List.Subset.refl _)

/-! ## `close_connection` comes to its end -/

/-- How many steps the accept thread has left in the joins. -/
def AcceptPc.weight : AcceptPc → Nat
  | .closing .joinRecv => 3
  | .closing .joinSend => 2
  | .closing .clearQueue => 1
  | _ => 0

/-- A bound on the steps the thread has left, once `m_connected` is false and the socket closed. -/
def RecvPc.weight : RecvPc → Nat
  | .absent | .done => 0
  | .loopConnected | .closing .clearQueue => 1
  | .loop | .closing .joinSend => 2
  | .testFd | .callback | .closing .joinRecv => 3
  | .recv _ | .stopping _ | .closing .closeClient => 4
  | .closing .storeConnected => 5

def SendPc.weight : SendPc → Nat
  | .absent | .done => 0
  | .loopConnected | .take => 1
  | .loop | .check => 2
  | .waitConnected | .sendLoopConnected _ _ => 3
  | .wait | .sendLoop _ _ => 4
  | .lock | .send _ _ => 5
  | .testFd _ | .sleep => 6

def measure (s : Sys) : Nat :=
  AcceptPc.weight s.accept + RecvPc.weight (s.recv s.conns) + SendPc.weight (s.send s.conns)

theorem closing_of_joins (hj : Joins s.accept) :
    ∃ pc, s.accept = .closing pc ∧ (pc = .joinRecv ∨ pc = .joinSend ∨ pc = .clearQueue) := by
  generalize ha : s.accept = a at hj
  cases a with
  | closing pc =>
    refine ⟨pc, rfl, ?_⟩
    cases pc with
    | storeConnected | closeClient => exact hj.elim
    | joinRecv => exact .inl rfl
    | joinSend => exact .inr (.inl rfl)
    | clearQueue => exact .inr (.inr rfl)
  | loop | poll | test | storeFd | storeConnected | spawnRecv | assignRecv | spawnSend | assignSend | done =>
    exact hj.elim

/-- What the threads find while the accept thread waits for them. -/
theorem Inv.down (h : Inv s) (hj : Joins s.accept) :
    s.connected = false ∧ s.clientFd = none ∧ s.sleepers = [] ∧ ∀ k, ¬ (s.recv k).Receives := by
  obtain ⟨pc, hpc, hor⟩ := closing_of_joins hj
  have hne : pc ≠ .storeConnected := by rcases hor with rfl | rfl | rfl <;> simp
  exact ⟨connected_of_closing h.toThreads hpc hne, (h.deaf hj).1, (h.awake pc hpc hne).1, (h.deaf hj).2⟩

theorem accept_lt {out : AcceptOut} (hj : Joins s.accept) (hs : s.acceptStep out = some s') :
    s'.recv = s.recv ∧ s'.send = s.send ∧ s'.conns = s.conns ∧
      AcceptPc.weight s'.accept < AcceptPc.weight s.accept ∧ (Joins s'.accept ∨ s'.accept = .storeFd) := by
  obtain ⟨pc, hpc, hor⟩ := closing_of_joins hj
  obtain ⟨t, rfl, hl, -⟩ := closing_cases hpc hs
  refine ⟨hl.recv, hl.send, hl.conns, ?_⟩
  rcases hor with rfl | rfl | rfl <;> simp [hpc, ClosePc.next, AcceptPc.weight, Joins]

theorem recv_lt (h : Inv s) (hj : Joins s.accept) {k : Nat} {out : RecvOut} (hs : s.recvStep k out = some s') :
    RecvPc.weight (s'.recv k) < RecvPc.weight (s.recv k) := by
  obtain ⟨hconn, hfd, -, hdeaf⟩ := h.down hj
  unfold Sys.recvStep at hs
  cases hpc : s.recv k with
  | absent | done =>
    simp only [hpc] at hs
    cases hs
  | loop =>
    simp only [hpc, Option.some.injEq] at hs
    subst hs
    split <;> simp [Sys.setRecv, RecvPc.weight]
  | loopConnected | testFd | callback =>
    simp only [hpc, hconn, hfd, Option.some.injEq] at hs
    simp [← hs, Sys.setRecv, RecvPc.weight]
  | recv conn => exact absurd (by simp [hpc, RecvPc.Receives]) (hdeaf k)
  | closing pc =>
    simp only [hpc] at hs
    obtain ⟨⟨t, next⟩, ht, rfl⟩ := Option.map_eq_some_iff.mp hs
    obtain ⟨-, rfl, -⟩ := closeStep_cases ht
    cases pc <;> simp [Sys.setRecv, ClosePc.next, RecvPc.weight]
  | stopping pc =>
    obtain ⟨rfl, hrun⟩ := h.stopping k pc hpc
    simp only [hpc] at hs
    obtain ⟨⟨t, next⟩, ht, rfl⟩ := Option.map_eq_some_iff.mp hs
    obtain ⟨-, hnext, -⟩ := stopStep_cases ht
    simp [hnext rfl hrun, Sys.setRecv, RecvPc.weight]

theorem send_lt (h : Inv s) (hj : Joins s.accept) {k : Nat} {out : SendOut} (hs : s.sendStep k out = some s') :
    SendPc.weight (s'.send k) < SendPc.weight (s.send k) := by
  obtain ⟨hconn, hfd, hnone, -⟩ := h.down hj
  simp only [Sys.sendStep, hnone, List.not_mem_nil, if_false] at hs
  cases hpc : s.send k with
  | absent | done =>
    simp only [hpc] at hs
    cases hs
  | loop | wait | check | sendLoop msg n =>
    simp only [hpc, Option.some.injEq] at hs
    subst hs
    split <;> simp [Sys.setSend, SendPc.weight]
  | loopConnected | waitConnected | sendLoopConnected msg n =>
    simp only [hpc, hconn, Bool.false_eq_true, false_and, if_false, Option.some.injEq] at hs
    simp [← hs, Sys.setSend, SendPc.weight]
  | sleep =>
    simp only [hpc, Option.some.injEq] at hs
    simp [← hs, Sys.setSend, SendPc.weight]
  | testFd msg =>
    simp only [hpc, hfd, Option.some.injEq] at hs
    simp [← hs, Sys.setSend, SendPc.weight]
  | lock =>
    simp only [hpc, Option.ite_none_right_eq_some, Option.some.injEq] at hs
    simp [← hs.2, Sys.setSend, SendPc.weight]
  | take =>
    simp only [hpc, hconn] at hs
    cases hs
    simp [Sys.setSend, SendPc.weight]
  | send msg n =>
    simp only [hpc, hfd] at hs
    cases out with
    | sent c => cases hs
    | again | error =>
      simp only [Option.some.injEq] at hs
      simp [← hs, Sys.setSend, SendPc.weight]

/-- Only the send thread of the connection being closed can run. -/
theorem conns_of_send (h : Inv s) (hj : Joins s.accept) {k : Nat} (h1 : s.send k ≠ .absent) (h2 : s.send k ≠ .done) :
    k = s.conns := by
  obtain ⟨pc, hpc, -⟩ := closing_of_joins hj
  exact (h.send (by simp [hpc]) k h1 h2).1

theorem conns_of_recv (h : Inv s) (hj : Joins s.accept) {k : Nat} (h1 : s.recv k ≠ .absent) (h2 : s.recv k ≠ .done) :
    k = s.conns ∧ s.recvHandle = some k := by
  obtain ⟨pc, hpc, -⟩ := closing_of_joins hj
  exact (h.recv (by simp [hpc]) k h1 h2).imp_right (·.resolve_right (by simp [hpc]))

theorem runs_of_holds {pc : SendPc} (h : pc.Holds) : pc ≠ .absent ∧ pc ≠ .done := by
  constructor <;> intro he <;> rw [he] at h <;> exact h

/-- A send thread that is not done can take a step: nobody else holds the lock. -/
theorem send_can (h : Inv s) (hj : Joins s.accept) {k : Nat} (h1 : s.send k ≠ .absent) (h2 : s.send k ≠ .done) :
    ∃ s', s.sendStep k .again = some s' := by
  obtain ⟨hconn, hfd, hnone, -⟩ := h.down hj
  simp only [Sys.sendStep, hnone, List.not_mem_nil, if_false]
  cases hpc : s.send k with
  | absent => exact absurd hpc h1
  | done => exact absurd hpc h2
  | lock =>
    have hfree : s.queueLock = none := by
      by_contra hlock
      obtain ⟨j, hlock⟩ := Option.ne_none_iff_exists'.mp hlock
      have hholds := (h.lock j).mp hlock
      have hruns := runs_of_holds hholds
      rw [conns_of_send h hj hruns.1 hruns.2, ← conns_of_send h hj h1 h2, hpc] at hholds
      exact hholds
    simp [hfree]
  | take => simp [hconn]
  | loop | loopConnected | wait | waitConnected | sleep | check | testFd msg | sendLoop msg n
  | sendLoopConnected msg n | send msg n => simp

/-- Behind the send thread nothing is in the way of the last two steps of `close_connection`. -/
theorem send_closed (h : Inv s) (hj : Joins s.accept) (hidle : ∀ k, s.send k = .absent ∨ s.send k = .done) :
    (∃ t, s.joinSend = some t) ∧ ∃ t, s.clearQueue = some t := by
  obtain ⟨pc, hpc, -⟩ := closing_of_joins hj
  constructor
  · unfold Sys.joinSend
    cases hh : s.sendHandle with
    | none => exact ⟨s, rfl⟩
    | some k =>
      obtain ⟨h1, h2⟩ := h.sendHandle k hh
      have hdone : s.send k = .done := (hidle k).resolve_left (h.sendThread k h1 h2 (by simp [hpc]))
      exact ⟨_, if_pos hdone⟩
  · have hfree : s.queueLock = none := by
      by_contra hlock
      obtain ⟨j, hlock⟩ := Option.ne_none_iff_exists'.mp hlock
      exact not_holds_of_idle (hidle j) ((h.lock j).mp hlock)
    exact ⟨_, if_pos hfree⟩

/-- Behind the send thread a receive thread that is not done can take a step. -/
theorem recv_can (h : Inv s) (hj : Joins s.accept) (hidle : ∀ k, s.send k = .absent ∨ s.send k = .done) {k : Nat}
    (h1 : s.recv k ≠ .absent) (h2 : s.recv k ≠ .done) : ∃ s', s.recvStep k .again = some s' := by
  obtain ⟨-, -, -, hdeaf⟩ := h.down hj
  obtain ⟨⟨t, hsend⟩, u, hclear⟩ := send_closed h hj hidle
  unfold Sys.recvStep
  cases hpc : s.recv k with
  | absent => exact absurd hpc h1
  | done => exact absurd hpc h2
  | loop | loopConnected | testFd | callback => simp
  | recv conn => exact absurd (by simp [hpc, RecvPc.Receives]) (hdeaf k)
  | closing pc =>
    cases pc with
    | storeConnected | closeClient => simp [Sys.closeStep]
    | joinRecv => exact absurd (conns_of_recv h hj h1 h2).2 (h.closing k (by simp [hpc, RecvPc.Closing]))
    | joinSend => simp [Sys.closeStep, hsend]
    | clearQueue => simp [Sys.closeStep, hclear]
  | stopping pc =>
    obtain ⟨rfl, -⟩ := h.stopping k pc hpc
    simp [Sys.stopStep]

/-- Behind both threads the accept thread can. -/
theorem accept_can (h : Inv s) (hj : Joins s.accept) (hsend : ∀ k, s.send k = .absent ∨ s.send k = .done)
    (hrecv : ∀ k, s.recv k = .absent ∨ s.recv k = .done) : ∃ s', s.acceptStep .idle = some s' := by
  obtain ⟨⟨t, hjoin⟩, u, hclear⟩ := send_closed h hj hsend
  obtain ⟨pc, hpc, rfl | rfl | rfl⟩ := closing_of_joins hj
  · have hrecv : ∃ t, s.joinRecv .accept = some t := by
      unfold Sys.joinRecv
      cases hh : s.recvHandle with
      | none => exact ⟨s, rfl⟩
      | some k =>
        obtain ⟨h1, h2⟩ := h.recvHandle k hh
        have hdone : s.recv k = .done := (hrecv k).resolve_left (h.recvThread k h1 h2 (by simp [hpc]))
        simp [hdone]
    obtain ⟨v, hv⟩ := hrecv
    simp [Sys.acceptStep, hpc, Sys.closeStep, hv]
  · simp [Sys.acceptStep, hpc, Sys.closeStep, hjoin]
  · simp [Sys.acceptStep, hpc, Sys.closeStep, hclear]

theorem own_can {size : Nat} (h : Inv s) (hj : Joins s.accept) :
    ∃ l s', Own s l ∧ (machine size).step s l = some s' := by
  by_cases hsend : ∃ k, s.send k ≠ .absent ∧ s.send k ≠ .done
  · obtain ⟨k, h1, h2⟩ := hsend
    obtain ⟨s', hs'⟩ := send_can h hj h1 h2
    exact ⟨.send k .again, s', trivial, by simpa only [machine, Sys.step, if_pos h.alive] using hs'⟩
  · have hsend : ∀ k, s.send k = .absent ∨ s.send k = .done := by simpa only [not_exists, ← not_or, not_not] using hsend
    by_cases hrecv : ∃ k, s.recv k ≠ .absent ∧ s.recv k ≠ .done
    · obtain ⟨k, h1, h2⟩ := hrecv
      obtain ⟨s', hs'⟩ := recv_can h hj hsend h1 h2
      exact ⟨.recv k .again, s', trivial, by simpa only [machine, Sys.step, if_pos h.alive] using hs'⟩
    · have hrecv : ∀ k, s.recv k = .absent ∨ s.recv k = .done := by
        simpa only [not_exists, ← not_or, not_not] using hrecv
      obtain ⟨s', hs'⟩ := accept_can h hj hsend hrecv
      exact ⟨.accept .idle, s', trivial, by simpa only [machine, Sys.step, if_pos h.alive] using hs'⟩

/-- While the accept thread waits, the threads of the server meet the condition by themselves. -/
theorem spares_of_joins (h : Inv s) (hj : Joins s.accept) {l : Label} (hl : Own s l) : Spares s l := by
  obtain ⟨pc, hpc, hor⟩ := closing_of_joins hj
  cases l with
  | accept out => rcases hor with rfl | rfl | rfl <;> simp [Spares, TestsClosed, hpc]
  | recv k out => exact fun hr => absurd hr ((h.deaf hj).2 k)
  | send k out => trivial
  | callbackStop k | callSend i data | enqueue i | notify i woken | spurious k | callStop i => exact hl.elim

theorem measure_lt {size : Nat} (h : Inv s) (hj : Joins s.accept) {l : Label} (hl : Own s l)
    (hs : (machine size).step s l = some s') :
    (Joins s'.accept ∨ s'.accept = .storeFd) ∧ measure s' < measure s := by
  simp only [machine, Sys.step, if_pos h.alive] at hs
  cases l with
  | accept out =>
    obtain ⟨hrecv, hsend, hconns, hlt, hnext⟩ := accept_lt hj hs
    refine ⟨hnext, ?_⟩
    simp only [measure, hrecv, hsend, hconns]
    omega
  | recv k out =>
    have hlt := recv_lt h hj hs
    obtain ⟨pc, t, hm, rfl⟩ := recvStep_cases hs
    obtain ⟨rfl, -⟩ := conns_of_recv h hj hm.started hm.running
    have hl := hm.lowered
    refine ⟨.inl (by simpa only [Sys.setRecv, hl.accept] using hj), ?_⟩
    simp only [measure, Sys.setRecv, hl.accept, hl.conns, hl.send] at hlt ⊢
    omega
  | send k out =>
    have hlt := send_lt h hj hs
    obtain ⟨pc, queue, queueLock, sleepers, sent, hm, rfl⟩ := sendStep_cases hs
    obtain rfl := conns_of_send h hj hm.started hm.running
    refine ⟨.inl hj, ?_⟩
    simp only [measure, Sys.setSend] at hlt ⊢
    omega
  | callbackStop k | callSend i data | enqueue i | notify i woken | spurious k | callStop i => exact hl.elim

/-- Every step of a thread that is waited for brings the accept thread nearer to the next client. -/
theorem closes_of_inv {size : Nat} (h : Inv s) (hj : Joins s.accept) :
    (machine size).Inevitable Own (fun t => t.accept = .storeFd) s := by
  refine Machine.inevitable_of_measure (I := fun t => Inv t ∧ (Joins t.accept ∨ t.accept = .storeFd)) measure
    (fun t ht => ?_) ⟨h, .inl hj⟩
  obtain ⟨hinv, hjoins | hfd⟩ := ht
  · refine .inr ⟨own_can hinv hjoins, fun l t' hl hs => ?_⟩
    obtain ⟨hnext, hlt⟩ := measure_lt hinv hjoins hl hs
    exact ⟨⟨inv_step hinv (spares_of_joins hinv hjoins hl) hs, hnext⟩, hlt⟩
  · exact .inl hfd

theorem Inv.survives {size : Nat} (h : Inv s) : Survives size s := by
  refine ⟨h.alive, fun k h1 h2 hpc => ⟨h.recvThread k h1 h2 fun _ => ?_, h.sendThread k h1 h2 fun _ => ?_⟩,
    closes_of_inv h⟩ <;> rcases hpc with hpc | hpc | hpc | hpc <;> simp [hpc]

end Steps

/-- **The condition is enough.** In a run whose steps meet it no thread joins itself, none is
assigned to a `std::thread` that is joinable, and every client is served. -/
theorem survives_throughout {size : Nat} {ls : List Label} (hok : (machine size).Along Spares .start ls) :
    (machine size).Throughout (Survives size) .start ls := by
  intro pre t hpre hr
  have hinv := Machine.throughout_of_along (fun s l s' h hok hs => inv_step h hok hs) inv_start hok
  exact (hinv pre t hpre hr).survives

/-- The first client gets a message and sends something, and while the callback runs and its
send thread transmits, a second one connects. -/
def replaced : List Label := accepts 9 ++ [.callSend 0 [7], .enqueue 0, .notify 0 none] ++
  List.replicate 10 (.send 1 .again) ++ List.replicate 4 (.recv 1 .data) ++ accepts 5 ++
  List.replicate 3 (.recv 1 .data) ++ accepts 1 ++ List.replicate 3 (.send 1 .error) ++ accepts 8

theorem survives_throughout_replaced :
    ((machine 10000).run .start replaced).map (fun s => (s.conns, s.recvHandle)) = some (2, some 2) ∧
      (machine 10000).Throughout (Survives 10000) .start replaced :=
  ⟨by decide +kernel, survives_throughout (by decide +kernel)⟩

/-- **Counterexample.** A client connects and closes: `recv` returns 0, and the receive thread
joins itself. -/
theorem disconnect_terminates : ¬ ∀ (size : Nat) (ls : List Label),
    (machine size).Throughout (Survives size) .start ls := by
  intro h
  have hrun : ((machine 10000).run .start (accepts 9 ++ List.replicate 7 (.recv 1 .zero))).map (·.crash) =
      some (some .joinsItself) := by decide +kernel
  obtain ⟨s, hs, hcrash⟩ := Option.map_eq_some_iff.mp hrun
  have halive := (h 10000 _ _ s List.prefix_rfl hs).alive
  rw [hcrash] at halive
  cases halive

/-! ## The send thread that nobody wakes -/

/-- `close_connection` does not notify `m_send_queue_cv`. Once the accept thread waits for a
send thread that sleeps there, no thread of the server moves again by itself. -/
theorem asleep_never_closes {size : Nat} {s : Sys} {k : Nat} (h : Threads s) (hpc : s.accept = .closing .joinSend)
    (hk : s.sendHandle = some k) (hsleep : k ∈ s.sleepers) {l : Label} (hl : Own s l) :
    (machine size).step s l = none := by
  have hdone : s.accept ≠ .done := by simp [hpc]
  have hlock : s.send k = .lock := h.asleep k hsleep
  have hlast : k = s.conns := (h.send hdone k (by simp [hlock]) (by simp [hlock])).1
  have hhandles := h.handles
  rw [hpc] at hhandles
  have hrecv := h.recv_idle hdone (by simp [hpc]) hhandles
  by_cases halive : s.crash = none
  · simp only [machine, Sys.step, if_pos halive]
    cases l with
    | accept out => simp [Sys.acceptStep, hpc, Sys.closeStep, Sys.joinSend, hk, hlock]
    | recv j out => rcases hrecv j with hj | hj <;> simp only [Sys.recvStep, hj]
    | send j out =>
      by_cases hj : s.send j = .absent ∨ s.send j = .done
      · rcases hj with hj | hj <;> simp only [Sys.sendStep, hj, ite_self]
      · have hlast' := (h.send hdone j (fun he => hj (.inl he)) (fun he => hj (.inr he))).1
        rw [hlast', ← hlast]
        exact if_pos hsleep
    | callbackStop i | callSend i data | enqueue i | notify i woken | spurious i | callStop i => exact hl.elim
  · exact if_neg halive

/-- The first client sends something and gets nothing, and a second one connects while the
callback runs. -/
def unwoken : List Label := accepts 9 ++ List.replicate 6 (.send 1 .again) ++
  List.replicate 4 (.recv 1 .data) ++ accepts 5 ++ List.replicate 3 (.recv 1 .data) ++ accepts 1

/-- **Counterexample.** No thread joins itself, and the second client is not served: the accept
thread does not come back from `close_connection`. -/
theorem unwoken_not_served :
    ∃ s, (machine 10000).run .start unwoken = some s ∧ s.crash = none ∧ ¬ Survives 10000 s := by
  have hrun : ((machine 10000).run .start unwoken).map (fun s => (s.crash, s.accept, s.sendHandle, s.sleepers)) =
      some (none, .closing .joinSend, some 1, [1]) := by decide +kernel
  obtain ⟨s, hs, he⟩ := Option.map_eq_some_iff.mp hrun
  simp only [Prod.mk.injEq] at he
  obtain ⟨hcrash, hpc, hhandle, hsleepers⟩ := he
  have hthreads : Threads s := Machine.throughout_of_along (fun s l s' h hok hs => threads_step h hok hs)
    threads_start (by decide +kernel : (machine 10000).Along ClosesFirst .start unwoken) _ s List.prefix_rfl hs
  refine ⟨s, hs, hcrash, fun hsurvives => ?_⟩
  have hcloses := hsurvives.closes (by rw [hpc]; trivial)
  cases hcloses with
  | here hfd =>
    rw [hpc] at hfd
    cases hfd
  | next can _ =>
    obtain ⟨l, s', hl, hstep⟩ := can
    rw [asleep_never_closes hthreads hpc hhandle (by simp [hsleepers]) hl] at hstep
    cases hstep

end MdInfoSet.L5.TcpThreads
