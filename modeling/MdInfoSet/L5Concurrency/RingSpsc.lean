import MdInfoSet.Core.Fifo
import MdInfoSet.L5Concurrency.RingMpsc

/-!
# `LockFreeRingBuffer` with one producer

With one producer nobody else moves `write_idx` or fills a slot, so every
schedule is undisturbed, and the buffer refines a FIFO queue of capacity 4096.
The queue is what stands between `read_idx` and `write_idx`: a push takes effect
at its successful compare-exchange, a pop at its store of `read_idx`, and a pop
that fails at its load of `write_idx` (`obs`).

**Refinement.** Every run from equal indices, whatever their value, is a run of
the bounded FIFO on what it is observed as (`spsc_refines_fifo`).
-/
namespace MdInfoSet.L5.RingSpsc

open MdInfoSet.L2.RingBuffer MdInfoSet.L5.RingMpsc

/-- What the abstract queue sees of a step. -/
def obs (s : Sys Unit) : Label Unit → Option (Fifo.Op Slot)
  | .prod () spurious =>
    match s.prod () with
    | .cas x currentWrite =>
      if s.ring.writeIdx = currentWrite ∧ spurious = false then some (.enq x) else none
    | _ => none
  | .tryPop =>
    match s.cons with
    | .loadWrite currentRead => if currentRead ≠ s.ring.writeIdx then none else some .empty
    | .storeRead _ slot => some (.deq slot)
    | _ => none
  | _ => none

/-- The indices a single producer holds: `write_idx` is its own, and `read_idx`
has only come closer to it since it was loaded. -/
def ProdOk (s : Sys Unit) (n : Nat) : PushPc → Prop
  | .idle | .loadWrite _ => True
  | .loadRead _ currentWrite => currentWrite = s.ring.writeIdx
  | .fill _ currentWrite currentRead =>
    currentWrite = s.ring.writeIdx ∧ n ≤ (currentWrite - currentRead).toNat
  | .cas _ currentWrite =>
    currentWrite = s.ring.writeIdx ∧ n < 4096 ∧ s.writer (getIndex currentWrite) = some ()

/-- The buffer holds the queue `a`. -/
structure Holds (s : Sys Unit) (a : List Slot) : Prop where
  pending : ∃ q, Pending s q ∧ a = copied s.cons ++ q
  le : a.length ≤ 4096
  prod : ProdOk s a.length (s.prod ())

theorem init_holds {s : Sys Unit} (h : Init s) : Holds s [] :=
  ⟨⟨[], init_pending h, by simp [copied, h.cons]⟩, by decide, by simp [ProdOk, h.prod]⟩

theorem Holds.idx {s : Sys Unit} {a : List Slot} (h : Holds s a) :
    s.ring.writeIdx = s.ring.readIdx + UInt64.ofNat a.length := by
  obtain ⟨q, hq, rfl⟩ := h.pending
  rw [hq.idx, base, List.length_append, UInt64.ofNat_add, UInt64.add_assoc]

theorem Holds.occupancy {s : Sys Unit} {a : List Slot} (h : Holds s a) :
    (s.ring.writeIdx - s.ring.readIdx).toNat = a.length :=
  add_ofNat_sub h.idx h.le

/-- A slot about to be filled is none of those between `read_idx` and `write_idx`. -/
theorem Holds.fill_free {s : Sys Unit} {a : List Slot} (h : Holds s a) {x : Slot} {cw cr : UInt64}
    (hp : s.prod () = .fill x cw cr) (hfull : isFull cr cw = false) :
    a.length < 4096 ∧
      ∀ k, k < a.length → getIndex (s.ring.readIdx + UInt64.ofNat k) ≠ getIndex cw := by
  have hprod := h.prod
  rw [hp] at hprod
  obtain ⟨rfl, hn⟩ := hprod
  have hlt : (s.ring.writeIdx - cr).toNat < 4096 := by
    simp only [isFull, ge_iff_le, decide_eq_false_iff_not, UInt64.not_le, UInt64.lt_iff_toNat_lt] at hfull
    exact hfull
  refine ⟨by omega, fun k hk he => ?_⟩
  rw [h.idx] at he
  have := getIndex_add_inj (by omega) (by omega) he
  omega

/-- With one producer every step meets the condition for several. -/
theorem Holds.undisturbed {s : Sys Unit} {a : List Slot} (h : Holds s a) (l : Label Unit) :
    Undisturbed s l := by
  cases l with
  | prod i spurious =>
    have hprod := h.prod
    simp only [Undisturbed]
    cases hi : s.prod () with
    | fill x cw cr =>
      intro hfull hun
      obtain ⟨q, hq, rfl⟩ := h.pending
      obtain ⟨k, hk, he⟩ := hq.unread.mp hun
      refine (h.fill_free hi hfull).2 ((copied s.cons).length + k) ?_ ?_
      · rw [List.length_append]; omega
      · rw [← he, base, UInt64.ofNat_add, UInt64.add_assoc]
    | cas x cw =>
      rw [hi] at hprod
      intro _ _
      exact hprod.2.2
    | _ => trivial
  | _ => trivial

/-! ## The steps -/

theorem Holds.enter {s s' : Sys Unit} {a : List Slot} (h : Holds s a) {x : Slot}
    (hs : enter s () x = some s') : Holds s' a := by
  obtain ⟨q, hq, ha⟩ := h.pending
  have hq' := hq.enter hs
  simp only [L2.RingBuffer.enter, Option.ite_none_right_eq_some, Option.some.injEq] at hs
  obtain ⟨-, rfl⟩ := hs
  exact ⟨⟨q, hq', ha⟩, h.le, by simp [Sys.setProd, ProdOk]⟩

/-- The producer's steps: a successful compare-exchange adds the record to the queue. -/
theorem Holds.push {s s' : Sys Unit} {a : List Slot} (h : Holds s a) {spurious : Bool}
    (hs : pushStep s () spurious = some s') :
    (Fifo.machine 4096).Follows a (Holds s') (obs s (.prod () spurious)) := by
  obtain ⟨q, hq, ha⟩ := h.pending
  have hok := h.undisturbed (.prod () spurious)
  have hprod := h.prod
  cases hi : s.prod () with
  | idle => simp [pushStep, hi] at hs
  | loadWrite x =>
    simp only [pushStep, hi, Option.some.injEq] at hs
    simp only [obs, hi]
    exact hs ▸ ⟨⟨q, hq.setProd () (by simp), ha⟩, h.le, by simp [Sys.setProd, ProdOk]⟩
  | loadRead x cw =>
    rw [hi] at hprod
    simp only [pushStep, hi, Option.some.injEq] at hs
    simp only [obs, hi]
    refine hs ▸ ⟨⟨q, hq.setProd () (by simp), ha⟩, h.le, ?_⟩
    simp only [Sys.setProd, Function.update_self, ProdOk]
    obtain rfl : cw = s.ring.writeIdx := hprod
    exact ⟨rfl, Nat.le_of_eq h.occupancy.symm⟩
  | fill x cw cr =>
    rw [hi] at hprod
    simp only [pushStep, hi] at hs
    simp only [Undisturbed, UndisturbedAt, hi] at hok
    simp only [obs, hi]
    split at hs
    · simp only [Option.some.injEq] at hs
      exact hs ▸ ⟨⟨q, hq.setProd () (by simp), ha⟩, h.le, by simp [Sys.setProd, ProdOk]⟩
    · rename_i hfull
      rw [Bool.not_eq_true] at hfull
      simp only [Option.some.injEq] at hs
      refine hs ▸ ⟨⟨q, hq.fill x (hok hfull), ha⟩, h.le, ?_⟩
      simp only [Sys.setProd, Function.update_self, ProdOk, writeSlot]
      exact ⟨hprod.1, (h.fill_free hi hfull).1, trivial⟩
  | cas x cw =>
    rw [hi] at hprod
    simp only [pushStep, hi] at hs
    simp only [obs, hi]
    split at hs
    · rename_i hcas
      rw [if_pos hcas]
      obtain ⟨rfl, -⟩ := hcas
      simp only [Option.some.injEq] at hs
      refine ⟨a ++ [x], by simp [Fifo.machine, Fifo.step, hprod.2.1], hs ▸ ⟨⟨q ++ [x], ?_, ?_⟩, ?_, ?_⟩⟩
      · exact hq.claim hi hprod.2.2
      · simp [ha, Sys.setProd, claim]
      · rw [List.length_append, List.length_singleton]; exact hprod.2.1
      · simp [Sys.setProd, ProdOk]
    · rename_i hcas
      rw [if_neg hcas]
      simp only [Option.some.injEq] at hs
      exact hs ▸ ⟨⟨q, hq.setProd () (by simp), ha⟩, h.le, by simp [Sys.setProd, ProdOk]⟩

/-- Loads and the copy leave the queue as it is. -/
theorem Holds.keep {s : Sys Unit} {a q : List Slot} (h : Holds s a) {pc : PopPc}
    (hq : Pending { s with cons := pc } q) (ha : a = copied pc ++ q) : Holds { s with cons := pc } a :=
  ⟨⟨q, hq, ha⟩, h.le, h.prod⟩

/-- The consumer's steps: the store of `read_idx` takes the record from the queue,
and a failing `try_pop` finds it empty. -/
theorem Holds.tryPop {s : Sys Unit} {a : List Slot} (h : Holds s a) :
    (Fifo.machine 4096).Follows a (Holds (popStep s)) (obs s .tryPop) := by
  obtain ⟨q, hq, ha⟩ := h.pending
  cases hc : s.cons with
  | idle =>
    have hq' := hq.load (.inl hc)
    simp only [obs, hc]
    simp only [popStep, hc] at hq' ⊢
    exact h.keep hq' (by simpa [copied, hc] using ha)
  | loadWrite cr =>
    have hq' := hq.load (.inr ⟨cr, hc⟩)
    have hcr : cr = s.ring.readIdx := by simpa only [ConsOk, hc] using hq.cons
    have ha' : a = q := by simpa [copied, hc] using ha
    simp only [obs, hc]
    simp only [popStep, hc] at hq' ⊢
    by_cases hne : cr ≠ s.ring.writeIdx
    · rw [if_pos hne] at hq' ⊢
      rw [if_pos hne]
      exact h.keep hq' ha'
    · rw [if_neg hne] at hq' ⊢
      rw [if_neg hne]
      have hnil : a = [] := by
        rw [ne_eq, not_not] at hne
        have := h.occupancy
        rw [← hne, hcr] at this
        simpa using this.symm
      exact ⟨a, by simp [Fifo.machine, Fifo.step, hnil], h.keep hq' ha'⟩
  | copy cr =>
    obtain ⟨y, q', rfl, -, hp, hq'⟩ := hq.copy hc
    simp only [obs, hc]
    rw [hp] at hq' ⊢
    exact h.keep hq' (by simpa [copied, hc] using ha)
  | storeRead cr y =>
    have hq' := hq.store hc
    have hcr : cr = s.ring.readIdx := by simpa only [ConsOk, hc] using hq.cons
    have ha' : a = y :: q := by simpa [copied, hc] using ha
    have hle := h.le
    have hprod := h.prod
    simp only [obs, hc]
    refine ⟨q, by simp [Fifo.machine, Fifo.step, ha'], ⟨q, hq', ?_⟩, ?_, ?_⟩
    · simp [popStep, hc, copied]
    · rw [ha', List.length_cons] at hle; omega
    · have hlt : q.length < a.length := by rw [ha', List.length_cons]; omega
      simp only [popStep, hc]
      revert hprod
      cases s.prod () with
      | fill x cw cr' => exact fun hprod => ⟨hprod.1, by have := hprod.2; omega⟩
      | cas x cw => exact fun hprod => ⟨hprod.1, by have := hprod.2.1; omega, hprod.2.2⟩
      | _ => exact fun hprod => hprod

theorem simulation : (machine Unit).Simulation (Fifo.machine 4096) obs Holds where
  step s l s' a h hs := by
    cases l with
    | pushL1 i m t0 t1 => exact h.enter hs
    | pushL2 i m t0 t1 => exact h.enter hs
    | prod i spurious => exact h.push hs
    | tryPop =>
      simp only [machine, step, Option.some.injEq] at hs
      exact hs ▸ h.tryPop

/-! ## The logs are what the queue saw -/

theorem step_logs {s s' : Sys Unit} {l : Label Unit} (hs : step s l = some s') :
    s'.pushed = s.pushed ++ Fifo.enqs (obs s l).toList ∧
      s'.popped = s.popped ++ Fifo.deqs (obs s l).toList := by
  cases l with
  | pushL1 i m t0 t1 | pushL2 i m t0 t1 =>
    simp only [step, enter, Option.ite_none_right_eq_some, Option.some.injEq] at hs
    obtain ⟨-, rfl⟩ := hs
    simp [Sys.setProd, obs, Fifo.enqs, Fifo.deqs]
  | prod i spurious =>
    simp only [step, pushStep] at hs
    simp only [obs]
    cases hi : s.prod () with
    | idle => simp [hi] at hs
    | cas x cw =>
      simp only [hi] at hs ⊢
      split at hs <;> rename_i hcas <;> simp only [Option.some.injEq] at hs <;> subst hs
      · simp [hcas, Sys.setProd, claim, Fifo.enqs, Fifo.deqs]
      · simp [hcas, Sys.setProd, Fifo.enqs, Fifo.deqs]
    | fill x cw cr =>
      simp only [hi] at hs ⊢
      split at hs <;> simp only [Option.some.injEq] at hs <;> subst hs <;>
        simp [Sys.setProd, writeSlot, Fifo.enqs, Fifo.deqs]
    | _ =>
      simp only [hi, Option.some.injEq] at hs ⊢
      subst hs
      simp [Sys.setProd, Fifo.enqs, Fifo.deqs]
  | tryPop =>
    simp only [step, Option.some.injEq] at hs
    subst hs
    simp only [obs, popStep]
    cases hc : s.cons with
    | loadWrite cr =>
      dsimp only
      split <;> simp [Fifo.enqs, Fifo.deqs]
    | _ => simp [Fifo.enqs, Fifo.deqs]

theorem run_logs {s s' : Sys Unit} {ls : List (Label Unit)} (hr : (machine Unit).run s ls = some s') :
    s'.pushed = s.pushed ++ Fifo.enqs ((machine Unit).trace obs s ls) ∧
      s'.popped = s.popped ++ Fifo.deqs ((machine Unit).trace obs s ls) := by
  induction ls generalizing s with
  | nil =>
    simp only [Machine.run_nil, Option.some.injEq] at hr
    simp [hr, Machine.trace, Fifo.enqs, Fifo.deqs]
  | cons l ls ih =>
    obtain ⟨s1, h1, h2⟩ := Machine.run_cons.mp hr
    obtain ⟨ha, hb⟩ := step_logs h1
    obtain ⟨hc, hd⟩ := ih h2
    simp only [Machine.trace, h1, Option.elim_some, Fifo.enqs_append, Fifo.deqs_append]
    rw [hc, hd, ha, hb, List.append_assoc, List.append_assoc]
    exact ⟨rfl, rfl⟩

/-- **Refinement.** At every moment of every run from equal indices: the run is
one of the bounded FIFO of capacity 4096, ending in the queue `q`; the records
pushed are those popped, in order, followed by `q`; `write_idx - read_idx` is the
length of `q`; a slot about to be filled is none of `q`; and a `try_pop` about to
fail finds `q` empty. -/
theorem spsc_refines_fifo {s₀ s : Sys Unit} {ls : List (Label Unit)} (h0 : Init s₀)
    (hr : (machine Unit).run s₀ ls = some s) :
    ∃ q, (Fifo.machine 4096).run [] ((machine Unit).trace obs s₀ ls) = some q ∧
      s.pushed = s.popped ++ q ∧
      (s.ring.writeIdx - s.ring.readIdx).toNat = q.length ∧ q.length ≤ 4096 ∧
      (∀ x currentWrite currentRead, s.prod () = .fill x currentWrite currentRead →
        isFull currentRead currentWrite = false →
        ∀ k, k < q.length → getIndex (s.ring.readIdx + UInt64.ofNat k) ≠ getIndex currentWrite) ∧
      ∀ currentRead, s.cons = .loadWrite currentRead →
        (popStep s).cons = .idle → q = [] := by
  obtain ⟨q, hrun, hq⟩ := simulation.run (init_holds h0) hr
  obtain ⟨hpushed, hpopped⟩ := run_logs hr
  rw [h0.pushed, List.nil_append] at hpushed
  rw [h0.popped, List.nil_append] at hpopped
  have hlog := Fifo.run_conserves hrun
  rw [List.nil_append, ← hpushed, ← hpopped] at hlog
  refine ⟨q, hrun, hlog, hq.occupancy, Fifo.run_length_le hrun (Nat.zero_le _),
    fun x cw cr hp hfull => (hq.fill_free hp hfull).2, fun cr hc hidle => ?_⟩
  have hempty := hq.tryPop
  simp only [popStep, hc] at hidle
  split at hidle
  · cases hidle
  · rename_i hne
    simp only [obs, hc, if_neg hne] at hempty
    obtain ⟨q', h1, -⟩ := hempty
    exact (Fifo.step_empty h1).1

/-- A push that wraps both indices around, and the pop of its record. -/
def wrapAround : List (Label Unit) :=
  [.pushL1 () Quota.init 1 2, .prod () false, .prod () false, .prod () false, .prod () true,
    .prod () false, .prod () false, .prod () false, .prod () false, .tryPop, .tryPop, .tryPop, .tryPop]

theorem spsc_refines_fifo_wrapAround :
    ∃ s q, (machine Unit).run (start Unit (UInt64.ofNat (2 ^ 64 - 1))) wrapAround = some s ∧
      s.ring.readIdx = 0 ∧ s.popped = [slotL1 Quota.init 1 2] ∧ s.pushed = s.popped ++ q ∧
      (s.ring.writeIdx - s.ring.readIdx).toNat = q.length := by
  have h : ((machine Unit).run (start Unit (UInt64.ofNat (2 ^ 64 - 1))) wrapAround).map
      (fun s => (s.ring.readIdx, s.popped)) = some (0, [slotL1 Quota.init 1 2]) := by decide
  obtain ⟨s, hs, he⟩ := Option.map_eq_some_iff.mp h
  obtain ⟨q, -, hlog, hocc, -⟩ := spsc_refines_fifo (start_init Unit _) hs
  exact ⟨s, q, hs, congrArg Prod.fst he, congrArg Prod.snd he, hlog, hocc⟩

end MdInfoSet.L5.RingSpsc
