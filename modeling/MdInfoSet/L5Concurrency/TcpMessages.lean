import MdInfoSet.L5Concurrency.TcpHandles

/-!
# Messages of `TCPServer` and its connections

`send` looks at `m_connected` first and takes the lock of the queue later; in between, the
connection may be closed, the queue cleared and the next client accepted. A message stays
with its connection as long as no clearing of the queue comes between the two, and no client
is handled while the threads of the one before are not joined.
-/
namespace MdInfoSet.L5.TcpMessages

open MdInfoSet.L5.TcpServer

/-- Whatever was transmitted, was on a connection no later than the one `send` saw up. -/
def NoneCrosses (s : Sys) : Prop := ∀ r ∈ s.sent, r.1 ≤ r.2.conn

/-- The queue was not cleared since the call looked at `m_connected`. -/
def FreshAt (clears : Nat) : CallPc → Prop
  | .sending _ c => c = clears
  | .idle | .notifying | .stopping _ => True

/-- The condition on a step: an item is put into a queue with room only if the queue was not
cleared since the check, and a client is handled without `close_connection` only when nothing
is joinable. -/
def Fresh (size : Nat) (s : Sys) : Label → Prop
  | .accept _ => TestsClosed s
  | .enqueue i => s.queue.length < size → FreshAt s.clears (s.call i)
  | .recv _ _ | .callbackStop _ | .send _ _ | .callSend _ _ | .notify _ _ | .spurious _ | .callStop _ => True

instance (clears : Nat) : DecidablePred (FreshAt clears)
  | .sending _ c => inferInstanceAs (Decidable (c = clears))
  | .idle | .notifying | .stopping _ => .isTrue trivial

instance (size : Nat) (s : Sys) : DecidablePred (Fresh size s)
  | .accept _ => inferInstanceAs (Decidable (TestsClosed s))
  | .enqueue i => inferInstanceAs (Decidable (s.queue.length < size → FreshAt s.clears (s.call i)))
  | .recv _ _ | .callbackStop _ | .send _ _ | .callSend _ _ | .notify _ _ | .spurious _ | .callStop _ => .isTrue trivial

/-- Where the messages are: in the queue and with the send thread those of the last connection,
with a call those of the connection it saw up, which is the last one if the queue was not
cleared since. -/
structure Messages (s : Sys) : Prop where
  connected : s.connected = true → 1 ≤ s.conns
  queue : ∀ msg ∈ s.queue, 1 ≤ msg.conn ∧ msg.conn = s.conns
  /-- None comes up before the queue is empty. -/
  storing : s.accept = .storeFd → s.queue = []
  held : ∀ k msg, (s.send k).msg = some msg → msg.conn = s.conns
  calls : ∀ i msg c, s.call i = .sending msg c → 1 ≤ msg.conn ∧ msg.conn ≤ s.conns ∧ c ≤ s.clears ∧
    (c = s.clears → msg.conn = s.conns ∧ s.accept ≠ .storeFd)
  fd : ∀ conn, s.clientFd = some conn → conn ≤ s.conns
  sent : NoneCrosses s

structure Inv (s : Sys) : Prop extends Threads s, Messages s

theorem messages_start : Messages .start where
  connected h := by cases h
  queue _ h := absurd h List.not_mem_nil
  storing _ := rfl
  held _ _ h := by cases h
  calls _ _ _ h := by cases h
  fd _ h := by cases h
  sent _ h := absurd h List.not_mem_nil

theorem inv_start : Inv .start := ⟨threads_start, messages_start⟩

section Threads

variable {s s' : Sys}

/-- `close_connection` and `stop` drop messages, and move none. -/
theorem Messages.lowered (h : Messages s) (hl : Lowered s s') : Messages s' where
  connected hc := by
    rw [hl.conns]
    exact h.connected (hl.connected hc)
  queue msg hmsg := by
    rw [hl.conns]
    rcases hl.queue with ⟨hq, -⟩ | ⟨hq, -⟩ <;> rw [hq] at hmsg
    · exact h.queue msg hmsg
    · cases hmsg
  storing ha := by
    rw [hl.accept] at ha
    rcases hl.queue with ⟨hq, -⟩ | ⟨hq, -⟩ <;> rw [hq]
    exact h.storing ha
  held k msg hk := by
    rw [hl.send] at hk
    rw [hl.conns]
    exact h.held k msg hk
  calls i msg c hc := by
    rw [hl.call] at hc
    rw [hl.conns, hl.accept]
    obtain ⟨h1, h2, h3, h4⟩ := h.calls i msg c hc
    rcases hl.queue with ⟨-, hcl⟩ | ⟨-, hcl, -⟩ <;> rw [hcl]
    · exact ⟨h1, h2, h3, h4⟩
    · exact ⟨h1, h2, by omega, fun he => by omega⟩
  fd conn hconn := by
    rw [hl.conns]
    rcases hl.clientFd with hf | hf <;> rw [hf] at hconn
    · exact h.fd conn hconn
    · cases hconn
  sent := by
    rw [NoneCrosses, hl.sent]
    exact h.sent

theorem Messages.setRecv (h : Messages s) (k : Nat) (pc : RecvPc) : Messages (s.setRecv k pc) := { h with }

theorem Messages.setSleepers (h : Messages s) (sleepers : List Nat) : Messages { s with sleepers := sleepers } :=
  { h with }

/-- A call moves on: what it is about to enqueue is of the connection that is up. -/
theorem Messages.setCall (h : Messages s) {i : Nat} {pc : CallPc}
    (hmsg : ∀ msg c, pc = .sending msg c → 1 ≤ msg.conn ∧ msg.conn ≤ s.conns ∧ c ≤ s.clears ∧
      (c = s.clears → msg.conn = s.conns ∧ s.accept ≠ .storeFd)) : Messages (s.setCall i pc) :=
  { h with
    calls := fun j msg c hj => by
      simp only [Sys.setCall] at hj
      by_cases hji : j = i
      · subst hji
        rw [Function.update_self] at hj
        exact hmsg msg c hj
      · rw [Function.update_of_ne hji] at hj
        exact h.calls j msg c hj }

theorem Messages.recvStep (h : Messages s) {k : Nat} {out : RecvOut} (hs : s.recvStep k out = some s') :
    Messages s' := by
  obtain ⟨pc, t, hm, rfl⟩ := recvStep_cases hs
  exact (h.lowered hm.lowered).setRecv k pc

theorem Messages.sendStep (h : Messages s) {k : Nat} {out : SendOut} (hs : s.sendStep k out = some s') :
    Messages s' := by
  obtain ⟨pc, queue, queueLock, sleepers, sent, hm, rfl⟩ := sendStep_cases hs
  have hsub : ∀ msg ∈ queue, msg ∈ s.queue := by
    rcases hm.queue with ⟨rfl, -⟩ | ⟨msg, hq, -⟩
    · exact fun _ => id
    · rw [hq]
      exact fun _ => List.mem_cons_of_mem _
  have hheld : ∀ msg, pc.msg = some msg → msg.conn = s.conns := by
    intro msg hmsg
    rcases hm.queue with ⟨-, hp⟩ | ⟨msg', hq, hp⟩
    · exact h.held k msg (hp msg hmsg)
    · rw [hp, Option.some.injEq] at hmsg
      subst hmsg
      exact (h.queue _ (by rw [hq]; exact List.mem_cons_self)).2
  refine { h with
    queue := fun msg hmsg => h.queue msg (hsub msg hmsg)
    storing := fun ha => ?_
    held := fun j msg hj => ?_
    sent := ?_ }
  · refine List.eq_nil_iff_forall_not_mem.mpr fun msg hmsg => ?_
    have hmem := hsub msg hmsg
    rw [h.storing ha] at hmem
    cases hmem
  · simp only [Sys.setSend] at hj ⊢
    by_cases hjk : j = k
    · subst hjk
      rw [Function.update_self] at hj
      exact hheld msg hj
    · rw [Function.update_of_ne hjk] at hj
      exact h.held j msg hj
  · rcases hm.sent with rfl | ⟨conn, msg, hconn, hmsg, rfl⟩
    · exact h.sent
    · intro r hr
      rcases List.mem_append.mp hr with hr | hr
      · exact h.sent r hr
      · rw [List.mem_singleton.mp hr, h.held k msg hmsg]
        exact h.fd conn hconn

theorem Inv.callSend (h : Inv s) {i : Nat} {data : Bytes} (hs : s.callSend i data = some s') : Messages s' := by
  rcases callSend_cases hs with rfl | ⟨hup, rfl⟩
  · exact h.toMessages
  · refine h.toMessages.setCall fun msg c hc => ?_
    cases hc
    refine ⟨h.connected hup, Nat.le_refl _, Nat.le_refl _, fun _ => ⟨rfl, fun hpc => ?_⟩⟩
    have hp := h.point
    rw [hpc] at hp
    rw [show s.connected = false from hp] at hup
    cases hup

theorem Messages.enqueue (h : Messages s) {size i : Nat} (hok : Fresh size s (.enqueue i))
    (hs : s.enqueue size i = some s') : Messages s' := by
  obtain ⟨msg, c, hpc, -, ⟨-, rfl⟩ | ⟨hroom, rfl⟩⟩ := enqueue_cases hs
  · exact h.setCall fun _ _ hc => by cases hc
  · have hfresh : FreshAt s.clears (s.call i) := hok hroom
    rw [hpc] at hfresh
    obtain ⟨hpos, -, -, hcur⟩ := h.calls i msg c hpc
    obtain ⟨hconn, haccept⟩ := hcur hfresh
    have hcall : Messages (s.setCall i .notifying) := h.setCall fun _ _ hc => by cases hc
    refine { hcall with storing := fun ha => absurd ha haccept, queue := fun m hm => ?_ }
    rcases List.mem_append.mp hm with hm | hm
    · exact h.queue m hm
    · rw [List.mem_singleton.mp hm]
      exact ⟨hpos, hconn⟩

theorem Messages.callStop (h : Messages s) {i : Nat} (hs : s.callStop i = some s') : Messages s' := by
  obtain ⟨t, pc, rfl, hl, -, hsend, -, -⟩ := callStop_cases hs
  exact (h.lowered hl).setCall fun msg c hc => absurd hc (hsend msg c)

end Threads

/-! ## The accept thread -/

section Accept

variable {s s' : Sys}

/-- Moving on, to `m_client_fd = client_fd` only with an empty queue and when no call is left
that would put an old message into it. -/
theorem Messages.setAccept (h : Messages s) {pc : AcceptPc}
    (hstore : pc = .storeFd → s.queue = [] ∧ ∀ i msg c, s.call i = .sending msg c → c ≠ s.clears) :
    Messages { s with accept := pc } :=
  { h with
    storing := fun ha => (hstore ha).1
    calls := fun i msg c hc => by
      obtain ⟨h1, h2, h3, h4⟩ := h.calls i msg c hc
      exact ⟨h1, h2, h3, fun he => ⟨(h4 he).1, fun hpc => (hstore hpc).2 i msg c hc he⟩⟩ }

/-- `close_connection` on the accept thread: it ends with an empty queue. -/
theorem Messages.closing (h : Messages s) {out : AcceptOut} {pc : ClosePc} (hpc : s.accept = .closing pc)
    (hs : s.acceptStep out = some s') : Messages s' := by
  obtain ⟨t, rfl, hl, -, -, -, -, -, -, hclear⟩ := closing_cases hpc hs
  refine (h.lowered hl).setAccept fun hstore => ?_
  -- Only the last point is followed by the store, and there the queue was cleared.
  cases pc <;> cases hstore
  obtain ⟨hqueue, hcl⟩ := hclear rfl
  refine ⟨hqueue, fun i msg c hc => ?_⟩
  rw [hl.call] at hc
  have hle := (h.calls i msg c hc).2.2.1
  omega

/-- The test of `m_connected`. A client is taken for the first only when nothing is
joinable. -/
theorem Inv.test (h : Inv s) {out : AcceptOut} (hpc : s.accept = .test) (hok : TestsClosed s)
    (hs : s.acceptStep out = some s') : Messages s' := by
  have hpoint := h.point
  rw [hpc] at hpoint
  simp only [Sys.acceptStep, hpc] at hs
  cases hs
  refine h.toMessages.setAccept fun hstore => ?_
  have hconn : ¬ s.connected = true := fun hup => by simp [hup] at hstore
  have hr := ((hok hpc).resolve_left hconn).1
  have hconns : s.conns = 0 := by
    by_cases hpos : 1 ≤ s.conns
    · have hup := hpoint hpos
      rw [hr] at hup
      cases hup
    · omega
  refine ⟨List.eq_nil_iff_forall_not_mem.mpr fun msg hmsg => ?_, fun i msg c hc => ?_⟩
  · have hmem := h.queue msg hmsg
    omega
  · obtain ⟨h1, h2, -, -⟩ := h.calls i msg c hc
    omega

/-- `m_client_fd = client_fd`: no thread of an earlier client is left. -/
theorem Inv.storeFd (h : Inv s) {out : AcceptOut} (hpc : s.accept = .storeFd)
    (hs : s.acceptStep out = some s') : Messages s' := by
  have hhandles := h.handles
  rw [hpc] at hhandles
  have hidle := h.send_idle (by simp [hpc]) (by simp [hpc]) hhandles.2
  have hqueue := h.storing hpc
  simp only [Sys.acceptStep, hpc] at hs
  cases hs
  exact {
    connected := fun _ => Nat.le_add_left ..
    queue := fun msg hmsg => by simp only [hqueue] at hmsg; cases hmsg
    storing := fun ha => by cases ha
    held := fun k msg hk => by rcases hidle k with hi | hi <;> simp only [hi] at hk <;> cases hk
    calls := fun i msg c hc => by
      obtain ⟨h1, h2, h3, h4⟩ := h.calls i msg c hc
      exact ⟨h1, Nat.le_succ_of_le h2, h3, fun he => absurd hpc (h4 he).2⟩
    fd := fun conn hc => by cases hc; exact Nat.le_refl _
    sent := h.sent }

theorem Inv.accept (h : Inv s) {out : AcceptOut} (hok : TestsClosed s) (hs : s.acceptStep out = some s') :
    Messages s' := by
  cases hpc : s.accept with
  | closing pc => exact h.toMessages.closing hpc hs
  | done =>
    simp only [Sys.acceptStep, hpc] at hs
    cases hs
  | loop | poll =>
    obtain ⟨pc, rfl, hnext⟩ := waiting_cases (by simp [hpc]) hs
    exact h.toMessages.setAccept fun he => by subst he; simp at hnext
  | test => exact h.test hpc hok hs
  | storeFd => exact h.storeFd hpc hs
  | storeConnected =>
    have hpoint := h.point
    rw [hpc] at hpoint
    simp only [Sys.acceptStep, hpc] at hs
    cases hs
    have hmove : Messages { s with accept := .spawnRecv } := h.toMessages.setAccept fun he => by cases he
    exact { hmove with connected := fun _ => hpoint.2 }
  | spawnRecv =>
    simp only [Sys.acceptStep, hpc] at hs
    cases hs
    have hmove : Messages { s with accept := .assignRecv } := h.toMessages.setAccept fun he => by cases he
    exact { hmove with }
  | assignRecv =>
    have hhandles := h.handles
    rw [hpc] at hhandles
    simp only [Sys.acceptStep, hpc, if_pos hhandles.1] at hs
    cases hs
    have hmove : Messages { s with accept := .spawnSend } := h.toMessages.setAccept fun he => by cases he
    exact { hmove with }
  | assignSend =>
    have hhandles := h.handles
    rw [hpc] at hhandles
    have hnone : s.sendHandle = none := hhandles
    simp only [Sys.acceptStep, hpc, if_pos hnone] at hs
    cases hs
    have hmove : Messages { s with accept := .loop } := h.toMessages.setAccept fun he => by cases he
    exact { hmove with }
  | spawnSend =>
    simp only [Sys.acceptStep, hpc] at hs
    cases hs
    have hmove : Messages { s with accept := .assignSend } := h.toMessages.setAccept fun he => by cases he
    refine { hmove with held := fun k msg hk => ?_ }
    by_cases hkc : k = s.conns
    · subst hkc
      simp [SendPc.msg] at hk
    · simp only [Function.update_of_ne hkc] at hk
      exact h.held k msg hk

end Accept

theorem inv_step {s s' : Sys} {size : Nat} {l : Label} (h : Inv s) (hok : Fresh size s l)
    (hs : (machine size).step s l = some s') : Inv s' := by
  refine ⟨threads_step h.toThreads (fun out hl => by subst hl; exact hok) hs, ?_⟩
  simp only [machine, Sys.step] at hs
  split at hs
  · cases l with
    | accept out => exact h.accept hok hs
    | recv k out => exact h.toMessages.recvStep hs
    | send k out => exact h.toMessages.sendStep hs
    | callbackStop k =>
      obtain ⟨-, rfl⟩ := callbackStop_cases hs
      exact h.toMessages.setRecv k _
    | callSend i data => exact h.callSend hs
    | enqueue i => exact h.toMessages.enqueue hok hs
    | notify i woken =>
      obtain ⟨-, sleepers, -, rfl⟩ := notify_cases hs
      have hcall : Messages (s.setCall i .idle) := h.toMessages.setCall fun _ _ hc => by cases hc
      exact hcall.setSleepers sleepers
    | spurious k =>
      obtain ⟨sleepers, -, rfl⟩ := spurious_cases hs
      exact h.toMessages.setSleepers sleepers
    | callStop i => exact h.toMessages.callStop hs
  · cases hs

/-- **The condition is enough.** In a run whose steps meet it no message is transmitted on a
later connection than the one `send` saw up. -/
theorem none_crosses_throughout {size : Nat} {ls : List Label} (hok : (machine size).Along (Fresh size) .start ls) :
    (machine size).Throughout NoneCrosses .start ls := by
  intro pre t hpre hr
  have hinv := Machine.throughout_of_along (fun s l s' h hok hs => inv_step h hok hs) inv_start hok
  exact (hinv pre t hpre hr).sent

/-- A message is sent on the first connection, and then the second client connects. -/
def sentFirst : List Label :=
  accepts 9 ++ [.callSend 0 [1], .enqueue 0, .notify 0 none] ++ List.replicate 11 (.send 1 (.sent 1)) ++
  accepts 5 ++ List.replicate 2 (.recv 1 .data) ++ accepts 1 ++ List.replicate 3 (.send 1 .again) ++ accepts 8

theorem none_crosses_throughout_sentFirst :
    ((machine 10000).run .start sentFirst).map (fun s => (s.conns, s.sent)) = some (2, [(1, ⟨1, [1]⟩)]) ∧
      (machine 10000).Throughout NoneCrosses .start sentFirst :=
  ⟨by decide +kernel, none_crosses_throughout (by decide +kernel)⟩

/-- **Counterexample.** A call of `send` sees the first connection up, and takes the lock when
the second client has been accepted and the queue cleared. -/
theorem stale_message_crosses : ¬ ∀ (size : Nat) (ls : List Label),
    (machine size).Throughout NoneCrosses .start ls := by
  intro h
  have hrun : ((machine 10000).run .start (accepts 9 ++ [.callSend 0 [1]] ++ accepts 5 ++
      List.replicate 2 (.recv 1 .data) ++ accepts 1 ++ List.replicate 2 (.send 1 .again) ++ accepts 2 ++
      [.enqueue 0] ++ accepts 6 ++ List.replicate 11 (.send 2 (.sent 1)))).map (·.sent) =
        some [(2, ⟨1, [1]⟩)] := by decide +kernel
  obtain ⟨s, hs, hsent⟩ := Option.map_eq_some_iff.mp hrun
  have hle := h 10000 _ _ s List.prefix_rfl hs (2, ⟨1, [1]⟩) (by rw [hsent]; exact List.mem_cons_self)
  exact absurd hle (by decide)

end MdInfoSet.L5.TcpMessages
