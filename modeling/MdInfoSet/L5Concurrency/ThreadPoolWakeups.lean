import Mathlib.Algebra.BigOperators.Group.Finset.Piecewise
import Mathlib.Algebra.Order.BigOperators.Group.Finset
import Mathlib.Data.Fintype.Basic
import MdInfoSet.L5Concurrency.ThreadPool

/-!
# Wake-ups of `ThreadPool`

The workers and the callers of `waitForAllDone` sleep on one condition variable
(src/qx_commom/threadpool.h), so the `notify_one` of `exec` may go to a caller, who looks at the
queue and sleeps again. Here the sleepers are explicit: who sleeps moves only when notified, or
at a spurious wake-up. `stop` sets `m_bTerminate` for good.

A worker that reads `m_bTerminate` at the head of `run` and leaves does nothing else that it
would not do under the lock in `get`, so the two are one step.

* `refines`: a run with sleepers is a run of `ThreadPool`, where whoever waits may look at any
  time.
* **No wake-up is lost** (`drains`): while the pool runs, it does not come to rest with work
  left. The workers can make only so many steps on their own, and when none of them can make
  one, the queue is empty, each task is finished and every `waitForAllDone` has been woken.
* **Stop** (`stopped`): behind `stop` the workers leave after as many steps, no task is taken
  from the queue any more, and as long as it is not empty no `waitForAllDone` returns.
-/
namespace MdInfoSet.L5.ThreadPoolWakeups

open MdInfoSet.L5.ThreadPool (WorkerPc CallPc)

/-- Who waits for `m_condition`: a worker, or a caller of `waitForAllDone`. -/
inductive Sleeper (ι : Type) where
  | worker (w : ι)
  | caller (i : Nat)
  deriving DecidableEq

structure Pool (ι : Type) where
  sys : ThreadPool.Sys ι
  sleepers : List (Sleeper ι)
  terminate : Bool
  exited : ι → Bool

inductive Label (ι : Type) where
  | worker (w : ι)
  /-- `notify_one` wakes `woken`. -/
  | exec (i : Nat) (woken : Option (Sleeper ι))
  | execReturn (i : Nat)
  | waitForAllDone (i : Nat)
  | look (i : Nat)
  | spurious (t : Sleeper ι)
  | stop

/-- Behind `start`. -/
def Pool.start (ι : Type) : Pool ι := ⟨.start ι, [], false, fun _ => false⟩

variable {ι : Type} [DecidableEq ι]

/-- mirrors src/qx_commom/threadpool.h:111-149 -/
def Pool.workerStep (p : Pool ι) (w : ι) : Option (Pool ι) :=
  if p.exited w ∨ Sleeper.worker w ∈ p.sleepers then none
  else
    match p.sys.worker w with
    | .get | .wait =>
      if p.terminate then some { p with exited := Function.update p.exited w true }
      else if p.sys.tasks = [] then
        some { p with sys := p.sys.setWorker w .wait, sleepers := Sleeper.worker w :: p.sleepers }
      else (p.sys.workerStep w).map fun sys => { p with sys := sys }
    | .notify =>
      (p.sys.workerStep w).map fun sys =>
        { p with sys := sys, sleepers := if p.sys.atomic = 0 ∧ p.sys.tasks = [] then [] else p.sleepers }
    | .incr _ | .execute _ | .decr => (p.sys.workerStep w).map fun sys => { p with sys := sys }

/-- Whom `notify_one` wakes: one of the sleepers, if there is one. -/
def Pool.notifyOne (p : Pool ι) : Option (Sleeper ι) → Option (List (Sleeper ι))
  | none => if p.sleepers = [] then some [] else none
  | some t => if t ∈ p.sleepers then some (p.sleepers.erase t) else none

/-- mirrors src/qx_commom/threadpool.h:85-99 -/
def Pool.exec (p : Pool ι) (i : Nat) (woken : Option (Sleeper ι)) : Option (Pool ι) :=
  (p.sys.exec i).bind fun sys => (p.notifyOne woken).map fun sleepers => { p with sys := sys, sleepers := sleepers }

/-- mirrors src/qx_commom/threadpool.h:102-108 -/
def Pool.look (p : Pool ι) (i : Nat) : Option (Pool ι) :=
  if Sleeper.caller i ∈ p.sleepers then none
  else (p.sys.look i).map fun sys =>
    { p with sys := sys, sleepers := if p.sys.tasks = [] then p.sleepers else Sleeper.caller i :: p.sleepers }

/-- mirrors src/qx_commom/threadpool.h:54-60, the critical section of `stop` -/
def Pool.stop (p : Pool ι) : Pool ι := { p with terminate := true, sleepers := [] }

def step (p : Pool ι) : Label ι → Option (Pool ι)
  | .worker w => p.workerStep w
  | .exec i woken => p.exec i woken
  | .execReturn i => (p.sys.execReturn i).map fun sys => { p with sys := sys }
  | .waitForAllDone i => (p.sys.waitForAllDone i).map fun sys => { p with sys := sys }
  | .look i => p.look i
  | .spurious t => if t ∈ p.sleepers then some { p with sleepers := p.sleepers.erase t } else none
  | .stop => some p.stop

def machine (ι : Type) [DecidableEq ι] : Machine (Pool ι) (Label ι) where
  init p := p = .start ι
  step := step

variable {p p' : Pool ι} {w : ι}

/-! ## What a worker does -/

/-- The worker has a task to finish or its end to announce. -/
def Busy : WorkerPc → Prop
  | .incr _ | .execute _ | .decr | .notify => True
  | .get | .wait => False

/-- The worker is counted in `m_atomic`. -/
def Counted : WorkerPc → Bool
  | .execute _ | .decr => true
  | .get | .wait | .incr _ | .notify => false

theorem counted_of_idle {pc : WorkerPc} (h : ¬ Busy pc) : Counted pc = false := by
  cases pc <;> first | rfl | exact absurd trivial h

theorem busy_of_counted {pc : WorkerPc} (h : Counted pc = true) : Busy pc := by
  cases pc <;> trivial

theorem busy_of_task {pc : WorkerPc} {task : Nat} (h : pc.task = some task) : Busy pc := by
  cases pc <;> trivial

/-- A step of a worker: it leaves, goes to sleep, takes a task, moves on with it, or announces
its end and may wake everybody. -/
inductive Moves (p : Pool ι) (w : ι) : Pool ι → Prop
  | leave (hpc : ¬ Busy (p.sys.worker w)) (hstop : p.terminate = true) :
    Moves p w { p with exited := Function.update p.exited w true }
  | sleep (hpc : ¬ Busy (p.sys.worker w)) (hstop : p.terminate = false) (htasks : p.sys.tasks = []) :
    Moves p w { p with sys := p.sys.setWorker w .wait, sleepers := Sleeper.worker w :: p.sleepers }
  | take (task : Nat) (tasks : List Nat) (hpc : ¬ Busy (p.sys.worker w)) (hstop : p.terminate = false)
    (htasks : p.sys.tasks = task :: tasks) :
    Moves p w { p with sys := { p.sys.setWorker w (.incr task) with tasks := tasks } }
  | incr (task : Nat) (hpc : p.sys.worker w = .incr task) :
    Moves p w { p with sys := { p.sys.setWorker w (.execute task) with atomic := p.sys.atomic + 1 } }
  | execute (task : Nat) (hpc : p.sys.worker w = .execute task) :
    Moves p w { p with sys := { p.sys.setWorker w .decr with finished := p.sys.finished ++ [task] } }
  | decr (hpc : p.sys.worker w = .decr) :
    Moves p w { p with sys := { p.sys.setWorker w .notify with atomic := p.sys.atomic - 1 } }
  | notify (sleepers : List (Sleeper ι)) (hpc : p.sys.worker w = .notify)
    (hsleepers : sleepers = if p.sys.atomic = 0 ∧ p.sys.tasks = [] then [] else p.sleepers) :
    Moves p w { p with sys := p.sys.setWorker w .get, sleepers := sleepers }

theorem workerStep_moves (hs : p.workerStep w = some p') :
    p.exited w = false ∧ Sleeper.worker w ∉ p.sleepers ∧ Moves p w p' := by
  unfold Pool.workerStep at hs
  split at hs
  · cases hs
  · rename_i hawake
    rw [not_or, Bool.not_eq_true] at hawake
    refine ⟨hawake.1, hawake.2, ?_⟩
    cases hpc : p.sys.worker w with
    | get | wait =>
      have hidle : ¬ Busy (p.sys.worker w) := by rw [hpc]; exact id
      simp only [hpc] at hs
      split at hs
      · cases hs
        exact .leave hidle ‹_›
      · have hstop : p.terminate = false := eq_false_of_ne_true ‹_›
        split at hs
        · cases hs
          exact .sleep hidle hstop ‹_›
        · cases htasks : p.sys.tasks with
          | nil => exact absurd htasks ‹_›
          | cons task tasks =>
            simp only [ThreadPool.Sys.workerStep, hpc, htasks, Option.map_some, Option.some.injEq] at hs
            rw [← hs]
            exact .take task tasks hidle hstop htasks
    | incr task =>
      simp only [hpc, ThreadPool.Sys.workerStep, Option.map_some, Option.some.injEq] at hs
      rw [← hs]
      exact .incr task hpc
    | execute task =>
      simp only [hpc, ThreadPool.Sys.workerStep, Option.map_some, Option.some.injEq] at hs
      rw [← hs]
      exact .execute task hpc
    | decr =>
      simp only [hpc, ThreadPool.Sys.workerStep, Option.map_some, Option.some.injEq] at hs
      rw [← hs]
      exact .decr hpc
    | notify =>
      simp only [hpc, ThreadPool.Sys.workerStep, Option.map_some, Option.some.injEq] at hs
      rw [← hs]
      exact .notify _ hpc rfl

/-- Awake and not gone, a worker can always make a step. -/
theorem workerStep_isSome (hexit : p.exited w = false) (hawake : Sleeper.worker w ∉ p.sleepers) :
    ∃ p', p.workerStep w = some p' := by
  unfold Pool.workerStep
  rw [if_neg (by simp [hexit, hawake])]
  cases hpc : p.sys.worker w with
  | get | wait =>
    dsimp only
    split
    · exact ⟨_, rfl⟩
    · split
      · exact ⟨_, rfl⟩
      · cases htasks : p.sys.tasks with
        | nil => exact absurd htasks ‹_›
        | cons task tasks => simp [ThreadPool.Sys.workerStep, hpc, htasks]
  | _ => simp [ThreadPool.Sys.workerStep, hpc]

/-! ## The sleepers and the pool without them -/

/-- What a step is in `ThreadPool`. -/
def obs (p : Pool ι) : Label ι → Option (ThreadPool.Label ι)
  | .worker w =>
    match p.sys.worker w with
    | .get => if p.terminate then none else some (.worker w)
    | .wait => if p.terminate ∨ p.sys.tasks = [] then none else some (.worker w)
    | .incr _ | .execute _ | .decr | .notify => some (.worker w)
  | .exec i _ => some (.exec i)
  | .execReturn i => some (.execReturn i)
  | .waitForAllDone i => some (.waitForAllDone i)
  | .look i => some (.look i)
  | .spurious _ | .stop => none

theorem refines : (machine ι).Simulation (ThreadPool.machine ι) obs fun p sys => p.sys = sys where
  step := by
    rintro p l p' _ rfl hs
    cases l with
    | worker w =>
      have hworker : p.workerStep w = some p' := hs
      obtain ⟨-, -, hmoves⟩ := workerStep_moves hworker
      clear hs hworker
      cases hmoves with
      | leave hpc hstop => cases hw : p.sys.worker w <;> simp_all [obs, Machine.Follows, Busy]
      | sleep hpc hstop htasks =>
        cases hw : p.sys.worker w with
        | get =>
          simp [obs, hw, hstop, Machine.Follows, ThreadPool.machine, ThreadPool.Sys.workerStep, htasks]
        | wait =>
          have hsame : p.sys.setWorker w .wait = p.sys := by
            rw [ThreadPool.Sys.setWorker, ← hw, Function.update_eq_self]
          simp [obs, hw, htasks, Machine.Follows, hsame]
        | _ => exact absurd (by rw [hw]; trivial) hpc
      | take task tasks hpc hstop htasks =>
        cases hw : p.sys.worker w with
        | get | wait =>
          simp [obs, hw, hstop, Machine.Follows, ThreadPool.machine, ThreadPool.Sys.workerStep, htasks]
        | _ => exact absurd (by rw [hw]; trivial) hpc
      | incr task hpc | execute task hpc | decr hpc | notify sleepers hpc hsleepers =>
        simp [obs, hpc, Machine.Follows, ThreadPool.machine, ThreadPool.Sys.workerStep]
    | exec i woken =>
      obtain ⟨sys, hsys, h⟩ := Option.bind_eq_some_iff.mp hs
      obtain ⟨sleepers, -, rfl⟩ := Option.map_eq_some_iff.mp h
      exact ⟨sys, hsys, rfl⟩
    | execReturn i | waitForAllDone i =>
      obtain ⟨sys, hsys, rfl⟩ := Option.map_eq_some_iff.mp hs
      exact ⟨sys, hsys, rfl⟩
    | look i =>
      have hlook : p.look i = some p' := hs
      unfold Pool.look at hlook
      split at hlook
      · cases hlook
      · obtain ⟨sys, hsys, rfl⟩ := Option.map_eq_some_iff.mp hlook
        exact ⟨sys, hsys, rfl⟩
    | spurious t =>
      have hwake : step p (.spurious t) = some p' := hs
      simp only [step, Option.ite_none_right_eq_some, Option.some.injEq] at hwake
      rw [← hwake.2]
      exact rfl
    | stop =>
      cases hs
      exact rfl

/-- What a step of `ThreadPool` keeps. -/
theorem sys_step {l : Label ι} (h : ThreadPool.Inv p.sys) (hs : step p l = some p') : ThreadPool.Inv p'.sys := by
  have hfollows := refines.step p l p' p.sys rfl hs
  cases ho : obs p l with
  | none =>
    rw [ho] at hfollows
    exact (show p'.sys = p.sys from hfollows) ▸ h
  | some k =>
    rw [ho] at hfollows
    obtain ⟨sys, hsys, hp⟩ := hfollows
    exact (show p'.sys = sys from hp) ▸ ThreadPool.inv_step h hsys

/-! ## What a worker wakes up for -/

@[simp] theorem setWorker_self {s : ThreadPool.Sys ι} {pc : WorkerPc} : (s.setWorker w pc).worker w = pc :=
  Function.update_self ..

theorem setWorker_of_ne {s : ThreadPool.Sys ι} {pc : WorkerPc} {w' : ι} (h : w' ≠ w) :
    (s.setWorker w pc).worker w' = s.worker w' :=
  Function.update_of_ne h ..

variable [Fintype ι]

/-- The workers counted in `m_atomic`. -/
def counted (s : ThreadPool.Sys ι) : Nat := ∑ w, (Counted (s.worker w)).toNat

theorem counted_setWorker (s : ThreadPool.Sys ι) (w : ι) (pc : WorkerPc) :
    counted (s.setWorker w pc) + (Counted (s.worker w)).toNat = counted s + (Counted pc).toNat := by
  have hfun : (fun w' => (Counted ((s.setWorker w pc).worker w')).toNat) =
      Function.update (fun w' => (Counted (s.worker w')).toNat) w (Counted pc).toNat := by
    funext w'
    by_cases hw : w' = w
    · subst hw
      rw [setWorker_self, Function.update_self]
    · rw [setWorker_of_ne hw, Function.update_of_ne hw]
  have hsum := Finset.sum_update_of_mem (Finset.mem_univ w) (fun w' => (Counted (s.worker w')).toNat) (Counted pc).toNat
  have hrest := Finset.sum_erase_add Finset.univ (fun w' => (Counted (s.worker w')).toNat) (Finset.mem_univ w)
  rw [Finset.sdiff_singleton_eq_erase] at hsum
  unfold counted
  rw [hfun, hsum]
  omega

/-- Who sleeps, and for what. -/
structure Inv (p : Pool ι) : Prop where
  sys : ThreadPool.Inv p.sys
  nodup : p.sleepers.Nodup
  asleep : ∀ w, Sleeper.worker w ∈ p.sleepers → ¬ Busy (p.sys.worker w)
  atomic : p.sys.atomic = counted p.sys
  exited : ∀ w, p.exited w = true → p.terminate = true ∧ ¬ Busy (p.sys.worker w)
  /-- A queued task has a worker that is awake. -/
  taker : p.terminate = false → p.sys.tasks ≠ [] → ∃ w, Sleeper.worker w ∉ p.sleepers
  /-- A sleeping `waitForAllDone` has a task to wait for, or a worker that will look whether to
  wake it. -/
  waker : ∀ i, Sleeper.caller i ∈ p.sleepers → p.sys.tasks ≠ [] ∨ ∃ w, Busy (p.sys.worker w)
  stopped : p.terminate = true → ∀ w, Sleeper.worker w ∉ p.sleepers

omit [DecidableEq ι] in
theorem inv_start : Inv (.start ι) where
  sys := ThreadPool.inv_start
  nodup := List.nodup_nil
  asleep _ h := absurd h List.not_mem_nil
  atomic := by simp [Pool.start, ThreadPool.Sys.start, counted, Counted]
  exited _ h := absurd h Bool.false_ne_true
  taker _ h := absurd rfl h
  waker _ h := absurd h List.not_mem_nil
  stopped h := absurd h Bool.false_ne_true

/-- A worker that moves on with its task. -/
theorem Inv.busy (h : Inv p) (hawake : Sleeper.worker w ∉ p.sleepers) (hexit : p.exited w = false)
    {sys : ThreadPool.Sys ι} (pc : WorkerPc) (hworker : sys.worker = (p.sys.setWorker w pc).worker) (hpc : Busy pc)
    (hsys : ThreadPool.Inv sys) (hatomic : sys.atomic = counted sys) : Inv { p with sys := sys } := by
  have hw : Busy (sys.worker w) := by rw [hworker, setWorker_self]; exact hpc
  have hother : ∀ w' ≠ w, sys.worker w' = p.sys.worker w' := fun w' hne => by rw [hworker, setWorker_of_ne hne]
  refine ⟨hsys, h.nodup, fun w' hw' => ?_, hatomic, fun w' hw' => ?_, fun _ _ => ⟨w, hawake⟩, fun _ _ => .inr ⟨w, hw⟩,
    h.stopped⟩
  · have hne : w' ≠ w := fun he => hawake (he ▸ hw')
    rw [hother w' hne]
    exact h.asleep w' hw'
  · have hne : w' ≠ w := fun he => by rw [he, hexit] at hw'; cases hw'
    obtain ⟨h1, h2⟩ := h.exited w' hw'
    exact ⟨h1, by dsimp only; rwa [hother w' hne]⟩

omit [Fintype ι] in
/-- Whoever else is busy stays so. -/
theorem busy_setWorker {pc : WorkerPc} {w' : ι} (hw : Busy (p.sys.worker w')) (hne : w' ≠ w) :
    ∃ w', Busy ((p.sys.setWorker w pc).worker w') :=
  ⟨w', by rwa [setWorker_of_ne hne]⟩

theorem Inv.sleep (h : Inv p) (hawake : Sleeper.worker w ∉ p.sleepers) (hexit : p.exited w = false)
    (hpc : ¬ Busy (p.sys.worker w)) (hstop : p.terminate = false) (htasks : p.sys.tasks = [])
    (hsys : ThreadPool.Inv (p.sys.setWorker w .wait)) :
    Inv { p with sys := p.sys.setWorker w .wait, sleepers := Sleeper.worker w :: p.sleepers } := by
  have hcounted := counted_setWorker p.sys w .wait
  rw [counted_of_idle hpc, show Counted .wait = false from rfl] at hcounted
  refine ⟨hsys, List.nodup_cons.mpr ⟨hawake, h.nodup⟩, fun w' hw' => ?_, ?_, fun w' hw' => ?_,
    fun _ hne => absurd htasks hne, fun i hi => .inr ?_, fun ht => by rw [hstop] at ht; cases ht⟩
  · by_cases he : w' = w
    · rw [he, setWorker_self]
      exact id
    · rw [setWorker_of_ne he]
      exact h.asleep w' (by simpa [he] using hw')
  · have hatomic := h.atomic
    dsimp only [ThreadPool.Sys.setWorker] at hcounted ⊢
    omega
  · have hne : w' ≠ w := fun he => by rw [he, hexit] at hw'; cases hw'
    obtain ⟨h1, h2⟩ := h.exited w' hw'
    exact ⟨h1, by dsimp only; rwa [setWorker_of_ne hne]⟩
  · obtain ht | ⟨w', hw'⟩ := h.waker i (by simpa using hi)
    · exact absurd htasks ht
    · exact busy_setWorker hw' fun he => hpc (he ▸ hw')

theorem Inv.notify (h : Inv p) {sleepers : List (Sleeper ι)} (hawake : Sleeper.worker w ∉ p.sleepers)
    (hexit : p.exited w = false) (hpc : p.sys.worker w = .notify)
    (hsleepers : sleepers = if p.sys.atomic = 0 ∧ p.sys.tasks = [] then [] else p.sleepers)
    (hsys : ThreadPool.Inv (p.sys.setWorker w .get)) :
    Inv { p with sys := p.sys.setWorker w .get, sleepers := sleepers } := by
  have hsub : sleepers.Sublist p.sleepers := by
    rw [hsleepers]
    split
    · exact List.nil_sublist _
    · exact List.Sublist.refl _
  have hcounted := counted_setWorker p.sys w .get
  rw [hpc] at hcounted
  refine ⟨hsys, h.nodup.sublist hsub, fun w' hw' => ?_, ?_, fun w' hw' => ?_,
    fun _ _ => ⟨w, fun hm => hawake (hsub.subset hm)⟩, fun i hi => ?_, fun ht w' hm => h.stopped ht w' (hsub.subset hm)⟩
  · have hne : w' ≠ w := fun he => hawake (he ▸ hsub.subset hw')
    rw [setWorker_of_ne hne]
    exact h.asleep w' (hsub.subset hw')
  · have hatomic := h.atomic
    simp only [Counted, Bool.toNat_false, Nat.add_zero] at hcounted
    dsimp only [ThreadPool.Sys.setWorker] at hcounted ⊢
    omega
  · have hne : w' ≠ w := fun he => by rw [he, hexit] at hw'; cases hw'
    obtain ⟨h1, h2⟩ := h.exited w' hw'
    exact ⟨h1, by dsimp only; rwa [setWorker_of_ne hne]⟩
  · -- whoever still sleeps has a task in the queue, or a worker counted in `m_atomic`
    rw [hsleepers] at hi
    split at hi
    · cases hi
    · rename_i hnot
      by_cases htasks : p.sys.tasks = []
      · have hpos : counted p.sys ≠ 0 := by
          have hatomic := h.atomic
          have hne : p.sys.atomic ≠ 0 := fun h0 => hnot ⟨h0, htasks⟩
          omega
        obtain ⟨w', -, hw'⟩ := Finset.exists_ne_zero_of_sum_ne_zero hpos
        have hcount : Counted (p.sys.worker w') = true := by
          cases hc : Counted (p.sys.worker w') with
          | true => rfl
          | false => rw [hc] at hw'; exact absurd rfl hw'
        exact .inr (busy_setWorker (busy_of_counted hcount) fun he => by rw [he, hpc] at hcount; cases hcount)
      · exact .inl htasks

theorem Inv.worker (h : Inv p) (hs : step p (.worker w) = some p') : Inv p' := by
  obtain ⟨hexit, hawake, hmoves⟩ := workerStep_moves (show p.workerStep w = some p' from hs)
  have hsys := sys_step h.sys hs
  have hatomic := h.atomic
  have hcounted := counted_setWorker p.sys w
  clear hs
  cases hmoves with
  | leave hpc hstop =>
    refine { h with exited := fun w' hw' => ?_ }
    by_cases he : w' = w
    · exact ⟨hstop, he ▸ hpc⟩
    · dsimp only at hw'
      rw [Function.update_of_ne he] at hw'
      exact h.exited w' hw'
  | sleep hpc hstop htasks => exact h.sleep hawake hexit hpc hstop htasks hsys
  | take task tasks hpc hstop htasks =>
    have hcount := hcounted (.incr task)
    rw [counted_of_idle hpc] at hcount
    refine h.busy hawake hexit (.incr task) rfl trivial hsys ?_
    simp only [Counted, Bool.toNat_false, Nat.add_zero] at hcount
    exact hatomic.trans (congrArg Nat.cast hcount.symm)
  | incr task hpc =>
    have hcount := hcounted (.execute task)
    rw [hpc] at hcount
    refine h.busy hawake hexit (.execute task) rfl trivial hsys ?_
    simp only [Counted, Bool.toNat_false, Bool.toNat_true, Nat.add_zero] at hcount
    show p.sys.atomic + 1 = (counted (p.sys.setWorker w (.execute task)) : Int)
    omega
  | execute task hpc =>
    have hcount := hcounted .decr
    rw [hpc] at hcount
    refine h.busy hawake hexit .decr rfl trivial hsys ?_
    simp only [Counted, Nat.add_right_cancel_iff] at hcount
    exact hatomic.trans (congrArg Nat.cast hcount.symm)
  | decr hpc =>
    have hcount := hcounted .notify
    rw [hpc] at hcount
    refine h.busy hawake hexit .notify rfl trivial hsys ?_
    simp only [Counted, Bool.toNat_false, Bool.toNat_true, Nat.add_zero] at hcount
    show p.sys.atomic - 1 = (counted (p.sys.setWorker w .notify) : Int)
    omega
  | notify sleepers hpc hsleepers => exact h.notify hawake hexit hpc hsleepers hsys

/-! ## What wakes a worker up -/

omit [Fintype ι] in
theorem notifyOne_sublist {woken : Option (Sleeper ι)} {sleepers : List (Sleeper ι)}
    (hs : p.notifyOne woken = some sleepers) : sleepers.Sublist p.sleepers := by
  unfold Pool.notifyOne at hs
  split at hs <;> simp only [Option.ite_none_right_eq_some, Option.some.injEq] at hs <;> rw [← hs.2]
  · exact List.nil_sublist _
  · exact List.erase_sublist

/-- With every worker asleep, only workers sleep: `notify_one` does not go to a caller. -/
theorem Inv.notifyOne (h : Inv p) [Nonempty ι] {woken : Option (Sleeper ι)} {sleepers : List (Sleeper ι)}
    (hs : p.notifyOne woken = some sleepers) (htasks : p.sys.tasks = []) : ∃ w, Sleeper.worker w ∉ sleepers := by
  by_cases hawake : ∃ w, Sleeper.worker w ∉ p.sleepers
  · obtain ⟨w, hw⟩ := hawake
    exact ⟨w, fun hm => hw ((notifyOne_sublist hs).subset hm)⟩
  · have hall : ∀ w, Sleeper.worker w ∈ p.sleepers := fun w => by_contra fun hw => hawake ⟨w, hw⟩
    obtain ⟨w₀⟩ := ‹Nonempty ι›
    cases woken with
    | none =>
      simp only [Pool.notifyOne, Option.ite_none_right_eq_some] at hs
      have hw := hall w₀
      rw [hs.1] at hw
      cases hw
    | some t =>
      simp only [Pool.notifyOne, Option.ite_none_right_eq_some, Option.some.injEq] at hs
      obtain ⟨ht, rfl⟩ := hs
      cases t with
      | worker w => exact ⟨w, h.nodup.not_mem_erase⟩
      | caller i =>
        obtain hne | ⟨w, hw⟩ := h.waker i ht
        · exact absurd htasks hne
        · exact absurd hw (h.asleep w (hall w))

theorem Inv.exec (h : Inv p) [Nonempty ι] {i : Nat} {woken : Option (Sleeper ι)} (hsys : ThreadPool.Inv p'.sys)
    (hs : p.exec i woken = some p') : Inv p' := by
  obtain ⟨sys, hexec, hs⟩ := Option.bind_eq_some_iff.mp hs
  obtain ⟨sleepers, hnotify, rfl⟩ := Option.map_eq_some_iff.mp hs
  have hsub := notifyOne_sublist hnotify
  unfold ThreadPool.Sys.exec at hexec
  split at hexec <;> cases hexec
  refine ⟨hsys, h.nodup.sublist hsub, fun w hw => h.asleep w (hsub.subset hw), h.atomic, h.exited, fun hstop _ => ?_,
    fun _ _ => .inl (by simp), fun hstop w hw => h.stopped hstop w (hsub.subset hw)⟩
  by_cases htasks : p.sys.tasks = []
  · exact h.notifyOne hnotify htasks
  · obtain ⟨w, hw⟩ := h.taker hstop htasks
    exact ⟨w, fun hm => hw (hsub.subset hm)⟩

omit [DecidableEq ι] in
/-- A caller that moves on and leaves the queue and the workers alone. -/
theorem Inv.caller (h : Inv p) {sys : ThreadPool.Sys ι} (hsys : ThreadPool.Inv sys) (htasks : sys.tasks = p.sys.tasks)
    (hworker : sys.worker = p.sys.worker) (hatomic : sys.atomic = p.sys.atomic) : Inv { p with sys := sys } where
  sys := hsys
  nodup := h.nodup
  asleep := by rw [hworker]; exact h.asleep
  atomic := by rw [hatomic, counted, hworker]; exact h.atomic
  exited := by rw [hworker]; exact h.exited
  taker := by rw [htasks]; exact h.taker
  waker := by rw [htasks, hworker]; exact h.waker
  stopped := h.stopped

omit [DecidableEq ι] in
/-- A caller goes to sleep while there is a task to wait for. -/
theorem Inv.push (h : Inv p) {i : Nat} (htasks : p.sys.tasks ≠ []) (hi : Sleeper.caller i ∉ p.sleepers) :
    Inv { p with sleepers := Sleeper.caller i :: p.sleepers } where
  sys := h.sys
  nodup := List.nodup_cons.mpr ⟨hi, h.nodup⟩
  asleep w hw := h.asleep w (by simpa using hw)
  atomic := h.atomic
  exited := h.exited
  taker hstop _ := by simpa using h.taker hstop htasks
  waker _ _ := .inl htasks
  stopped hstop w hw := h.stopped hstop w (by simpa using hw)

omit [DecidableEq ι] in
/-- Waking somebody is always right. -/
theorem Inv.wake (h : Inv p) {sleepers : List (Sleeper ι)} (hsub : sleepers.Sublist p.sleepers) :
    Inv { p with sleepers := sleepers } where
  sys := h.sys
  nodup := h.nodup.sublist hsub
  asleep w hw := h.asleep w (hsub.subset hw)
  atomic := h.atomic
  exited := h.exited
  taker hstop htasks :=
    have ⟨w, hw⟩ := h.taker hstop htasks
    ⟨w, fun hm => hw (hsub.subset hm)⟩
  waker i hi := h.waker i (hsub.subset hi)
  stopped hstop w hw := h.stopped hstop w (hsub.subset hw)

omit [DecidableEq ι] in
theorem Inv.stop (h : Inv p) : Inv p.stop where
  sys := h.sys
  nodup := List.nodup_nil
  asleep _ hw := absurd hw List.not_mem_nil
  atomic := h.atomic
  exited w hw := ⟨rfl, (h.exited w hw).2⟩
  taker hstop := by cases hstop
  waker _ hi := absurd hi List.not_mem_nil
  stopped _ _ := List.not_mem_nil

theorem inv_inductive [Nonempty ι] : (machine ι).Inductive Inv where
  init p hp := hp ▸ inv_start
  step p l p' h hs := by
    have hsys := sys_step h.sys hs
    cases l with
    | worker w => exact h.worker hs
    | exec i woken => exact h.exec hsys hs
    | execReturn i =>
      obtain ⟨sys, hcall, rfl⟩ := Option.map_eq_some_iff.mp hs
      unfold ThreadPool.Sys.execReturn at hcall
      split at hcall <;> cases hcall
      exact h.caller hsys rfl rfl rfl
    | waitForAllDone i =>
      obtain ⟨sys, hcall, rfl⟩ := Option.map_eq_some_iff.mp hs
      unfold ThreadPool.Sys.waitForAllDone at hcall
      split at hcall <;> cases hcall
      exact h.caller hsys rfl rfl rfl
    | look i =>
      have hlook : p.look i = some p' := hs
      unfold Pool.look at hlook
      split at hlook
      · cases hlook
      · rename_i hi
        obtain ⟨sys, hcall, rfl⟩ := Option.map_eq_some_iff.mp hlook
        obtain ⟨before, -, ⟨htasks, rfl⟩ | ⟨htasks, rfl⟩⟩ := ThreadPool.look_cases hcall
        · rw [if_pos htasks]
          exact h.caller hsys rfl rfl rfl
        · rw [if_neg htasks]
          exact (h.push htasks hi).caller hsys rfl rfl rfl
    | spurious t =>
      have hwake : step p (.spurious t) = some p' := hs
      simp only [step, Option.ite_none_right_eq_some, Option.some.injEq] at hwake
      rw [← hwake.2]
      exact h.wake List.erase_sublist
    | stop =>
      cases hs
      exact h.stop

/-! ## The pool comes to rest -/

/-- The steps a worker has before it, where its end may send `n` workers to look again. -/
def stepsLeft (n : Nat) : WorkerPc → Nat
  | .get | .wait => 1
  | .notify => n + 2
  | .decr => n + 3
  | .execute _ => n + 4
  | .incr _ => n + 5

omit [Fintype ι] in
theorem stepsLeft_idle {n : Nat} {pc : WorkerPc} (h : ¬ Busy pc) : stepsLeft n pc = 1 := by
  cases pc <;> first | rfl | exact absurd trivial h

def Pool.weight (p : Pool ι) (w : ι) : Nat :=
  if p.exited w ∨ Sleeper.worker w ∈ p.sleepers then 0 else stepsLeft (Fintype.card ι) (p.sys.worker w)

/-- A bound on the steps of the workers until they all sleep. -/
def Pool.work (p : Pool ι) : Nat := p.sys.tasks.length * (Fintype.card ι + 5) + ∑ w, p.weight w

theorem sum_add_le {f g : ι → Nat} {a b e : Nat} (hw : g w + Fintype.card ι * e + a ≤ f w + b)
    (hother : ∀ w' ≠ w, g w' ≤ f w' + e) : ∑ w, g w + a ≤ ∑ w, f w + b := by
  have hf := Finset.sum_erase_add Finset.univ f (Finset.mem_univ w)
  have hg := Finset.sum_erase_add Finset.univ g (Finset.mem_univ w)
  have hle : ∑ w' ∈ Finset.univ.erase w, g w' ≤ ∑ w' ∈ Finset.univ.erase w, (f w' + e) :=
    Finset.sum_le_sum fun w' hw' => hother w' (Finset.ne_of_mem_erase hw')
  rw [Finset.sum_add_distrib, Finset.sum_const_nat fun _ _ => rfl] at hle
  have hcard : (Finset.univ.erase w).card * e ≤ Fintype.card ι * e :=
    Nat.mul_le_mul_right e (Finset.card_le_univ _)
  omega

theorem weight_awake (hexit : p.exited w = false) (hawake : Sleeper.worker w ∉ p.sleepers) :
    p.weight w = stepsLeft (Fintype.card ι) (p.sys.worker w) := by
  rw [Pool.weight, if_neg (by simp [hexit, hawake])]

/-- A worker that moves on and stays awake: the others have what they had. -/
theorem work_moved (hexit : p.exited w = false) (hawake : Sleeper.worker w ∉ p.sleepers)
    {sys : ThreadPool.Sys ι} (pc : WorkerPc) (hworker : sys.worker = (p.sys.setWorker w pc).worker)
    (hless : sys.tasks.length * (Fintype.card ι + 5) + stepsLeft (Fintype.card ι) pc + 1 ≤
      p.sys.tasks.length * (Fintype.card ι + 5) + stepsLeft (Fintype.card ι) (p.sys.worker w)) :
    ({ p with sys := sys } : Pool ι).work + 1 ≤ p.work := by
  have hself : ({ p with sys := sys } : Pool ι).weight w = stepsLeft (Fintype.card ι) pc := by
    rw [weight_awake (p := { p with sys := sys }) hexit hawake]
    dsimp only
    rw [hworker, setWorker_self]
  have hother : ∀ w' ≠ w, ({ p with sys := sys } : Pool ι).weight w' ≤ p.weight w' + 0 := fun w' hne => by
    simp only [Pool.weight, hworker, setWorker_of_ne hne]
    exact Nat.le_refl _
  have hsum := sum_add_le (w := w) (a := sys.tasks.length * (Fintype.card ι + 5) + 1)
    (b := p.sys.tasks.length * (Fintype.card ι + 5)) (by rw [hself, weight_awake hexit hawake]; omega) hother
  simp only [Pool.work]
  omega

/-- Each step of a worker takes one off the bound. -/
theorem Inv.work_step (h : Inv p) (hs : p.workerStep w = some p') : p'.work + 1 ≤ p.work := by
  obtain ⟨hexit, hawake, hmoves⟩ := workerStep_moves hs
  have hself := weight_awake hexit hawake
  clear hs
  cases hmoves with
  | leave hpc hstop =>
    rw [stepsLeft_idle hpc] at hself
    have hsum := sum_add_le (w := w) (f := p.weight)
      (g := ({ p with exited := Function.update p.exited w true } : Pool ι).weight) (a := 1) (b := 0) (e := 0)
      (by rw [hself]; simp [Pool.weight]) (fun w' hne => by simp [Pool.weight, Function.update_of_ne hne])
    simp only [Pool.work]
    omega
  | sleep hpc hstop htasks =>
    rw [stepsLeft_idle hpc] at hself
    have hsum := sum_add_le (w := w) (f := p.weight)
      (g := ({ p with
        sys := p.sys.setWorker w .wait, sleepers := Sleeper.worker w :: p.sleepers } : Pool ι).weight)
      (a := 1) (b := 0) (e := 0) (by rw [hself]; simp [Pool.weight])
      (fun w' hne => by simp [Pool.weight, setWorker_of_ne hne, hne])
    simp only [Pool.work, ThreadPool.Sys.setWorker] at hsum ⊢
    omega
  | take task tasks hpc hstop htasks =>
    refine work_moved hexit hawake (.incr task) rfl ?_
    rw [stepsLeft_idle hpc, htasks, List.length_cons, Nat.add_one_mul]
    simp only [stepsLeft]
    omega
  | incr task hpc => exact work_moved hexit hawake (.execute task) rfl (by rw [hpc]; exact Nat.le_refl _)
  | execute task hpc => exact work_moved hexit hawake .decr rfl (by rw [hpc]; exact Nat.le_refl _)
  | decr hpc => exact work_moved hexit hawake .notify rfl (by rw [hpc]; exact Nat.le_refl _)
  | notify sleepers hpc hsleepers =>
    have hsub : sleepers ⊆ p.sleepers := by
      rw [hsleepers]
      split
      · exact List.nil_subset _
      · exact List.Subset.refl _
    have hsum := sum_add_le (w := w) (f := p.weight)
      (g := ({ p with sys := p.sys.setWorker w .get, sleepers := sleepers } : Pool ι).weight)
      (a := 1) (b := 0) (e := 1) ?_ fun w' hne => ?_
    · simp only [Pool.work, ThreadPool.Sys.setWorker] at hsum ⊢
      omega
    · have hmoved : Sleeper.worker w ∉ sleepers := fun hm => hawake (hsub hm)
      rw [hself, hpc, weight_awake (p := { p with sys := p.sys.setWorker w .get, sleepers := sleepers }) hexit hmoved]
      simp only [setWorker_self, stepsLeft]
      omega
    · -- who is woken looks once
      simp only [Pool.weight, setWorker_of_ne hne]
      by_cases hasleep : Sleeper.worker w' ∈ p.sleepers
      · rw [stepsLeft_idle (h.asleep w' hasleep)]
        split <;> omega
      · simp only [hasleep, mt (@hsub _) hasleep]
        omega

omit [Fintype ι] in
theorem terminate_workerStep (hs : p.workerStep w = some p') : p'.terminate = p.terminate := by
  obtain ⟨-, -, hmoves⟩ := workerStep_moves hs
  cases hmoves <;> rfl

omit [Fintype ι] in
theorem submitted_workerStep (hs : p.workerStep w = some p') : p'.sys.submitted = p.sys.submitted := by
  obtain ⟨-, -, hmoves⟩ := workerStep_moves hs
  cases hmoves <;> rfl

/-- A run of the workers alone. -/
theorem run_workers [Nonempty ι] {ws : List ι} (h : Inv p)
    (hr : (machine ι).run p (ws.map .worker) = some p') :
    Inv p' ∧ p'.terminate = p.terminate ∧ p'.sys.submitted = p.sys.submitted ∧ p'.work + ws.length ≤ p.work := by
  induction ws generalizing p with
  | nil =>
    simp only [List.map_nil, Machine.run_nil, Option.some.injEq] at hr
    subst hr
    exact ⟨h, rfl, rfl, Nat.le_refl _⟩
  | cons w ws ih =>
    obtain ⟨p1, h1, h2⟩ := Machine.run_cons.mp hr
    have hstep : p.workerStep w = some p1 := h1
    obtain ⟨hi, hterminate, hsubmitted, hwork⟩ := ih (inv_inductive.step p _ p1 h h1) h2
    have hless := h.work_step hstep
    refine ⟨hi, hterminate.trans (terminate_workerStep hstep), hsubmitted.trans (submitted_workerStep hstep), ?_⟩
    rw [List.length_cons]
    omega

omit [Fintype ι] in
/-- Where no worker can make a step, each of them has gone or sleeps. -/
theorem at_rest (hrest : step p (.worker w) = none) : p.exited w = true ∨ Sleeper.worker w ∈ p.sleepers := by
  by_contra hnot
  rw [not_or, Bool.not_eq_true] at hnot
  obtain ⟨p', hs⟩ := workerStep_isSome hnot.1 hnot.2
  rw [show step p (.worker w) = p.workerStep w from rfl, hs] at hrest
  cases hrest

/-- **No wake-up is lost.** While the pool runs, the workers come to rest on their own after so
many steps, and at rest nothing is left: the queue is empty, each task pushed is finished, and
no `waitForAllDone` sleeps. -/
theorem drains [Nonempty ι] (p p' : Pool ι) (ws : List ι) (hp : (machine ι).Reachable p) (hruns : p.terminate = false)
    (hr : (machine ι).run p (ws.map .worker) = some p') :
    ws.length ≤ p.work ∧ ((∀ w, step p' (.worker w) = none) →
      p'.sys.tasks = [] ∧ (∀ task < p.sys.submitted, task ∈ p'.sys.finished) ∧
        ∀ i, Sleeper.caller i ∉ p'.sleepers) := by
  obtain ⟨h, hterminate, hsubmitted, hwork⟩ := run_workers (inv_inductive.reachable hp) hr
  refine ⟨by omega, fun hrest => ?_⟩
  have hasleep : ∀ w, Sleeper.worker w ∈ p'.sleepers := by
    intro w
    refine (at_rest (hrest w)).resolve_left fun hexit => ?_
    rw [(h.exited w hexit).1, hruns] at hterminate
    cases hterminate
  have hidle : ∀ w, ¬ Busy (p'.sys.worker w) := fun w => h.asleep w (hasleep w)
  have htasks : p'.sys.tasks = [] := by
    by_contra hne
    obtain ⟨w, hw⟩ := h.taker (hterminate.trans hruns) hne
    exact hw (hasleep w)
  refine ⟨htasks, fun task ht => ?_, fun i hi => ?_⟩
  · obtain hq | ⟨w, hw⟩ | hf := h.sys.placed task (by omega)
    · rw [htasks] at hq
      cases hq
    · exact absurd (busy_of_task hw) (hidle w)
    · exact hf
  · obtain hne | ⟨w, hw⟩ := h.waker i hi
    · exact hne htasks
    · exact hidle w hw

/-- Both workers sleep when the first task comes. The caller 1 sleeps when the second one does,
and is the one `notify_one` wakes; the worker that is awake runs both tasks and wakes everybody. -/
theorem drains_two : ∃ p p' : Pool Bool,
    (machine Bool).run (.start Bool) [.worker true, .worker false, .exec 0 (some (.worker true)),
      .waitForAllDone 1, .look 1, .exec 2 (some (.caller 1)), .look 1] = some p ∧
    12 ≤ p.work ∧ p'.sys.tasks = [] ∧ (∀ task < p.sys.submitted, task ∈ p'.sys.finished) ∧
      ∀ i, Sleeper.caller i ∉ p'.sleepers := by
  have hrun : (((machine Bool).run (.start Bool) [.worker true, .worker false, .exec 0 (some (.worker true)),
      .waitForAllDone 1, .look 1, .exec 2 (some (.caller 1)), .look 1]).any fun p => !p.terminate &&
        ((machine Bool).run p ((List.replicate 11 true ++ [false]).map .worker)).any fun p' =>
          (step p' (.worker true)).isNone && (step p' (.worker false)).isNone) = true := by decide
  obtain ⟨p, hp, hok⟩ := (Option.any_eq_true _ _).mp hrun
  rw [Bool.and_eq_true, Bool.not_eq_true'] at hok
  obtain ⟨p', hp', hrest⟩ := (Option.any_eq_true _ _).mp hok.2
  rw [Bool.and_eq_true, Option.isNone_iff_eq_none, Option.isNone_iff_eq_none] at hrest
  obtain ⟨hle, hdone⟩ := drains p p' _ ⟨_, _, rfl, hp⟩ hok.1 hp'
  exact ⟨p, p', hp, hle, hdone fun w => by cases w <;> [exact hrest.2; exact hrest.1]⟩

/-! ## Behind `stop` -/

omit [Fintype ι]

def Label.isWorker (w : ι) : Label ι → Bool
  | .worker w' => w' = w
  | .exec _ _ | .execReturn _ | .waitForAllDone _ | .look _ | .spurious _ | .stop => false

/-- The steps worker `w` has before it until it leaves. -/
def Pool.toLeave (p : Pool ι) (w : ι) : Nat := if p.exited w then 0 else stepsLeft 0 (p.sys.worker w)

omit [DecidableEq ι] in
theorem toLeave_le : p.toLeave w ≤ 5 := by
  unfold Pool.toLeave
  split
  · exact Nat.zero_le 5
  · cases p.sys.worker w <;> simp [stepsLeft]

/-- The queue and what has returned, behind `stop`: tasks only come, and nobody who waits for
an empty queue returns while there is one. -/
structure Closed (p p' : Pool ι) : Prop where
  terminate : p'.terminate = true
  tasks : p.sys.tasks <+: p'.sys.tasks
  returns : p.sys.tasks ≠ [] → p'.sys.returns = p.sys.returns

omit [DecidableEq ι] in
theorem Closed.trans {p'' : Pool ι} (h : Closed p p') (h' : Closed p' p'') : Closed p p'' where
  terminate := h'.terminate
  tasks := h.tasks.trans h'.tasks
  returns hne := (h'.returns fun he => hne (List.prefix_nil.mp (he ▸ h.tasks))).trans (h.returns hne)

omit [DecidableEq ι] in
theorem closed_same {sys : ThreadPool.Sys ι} {sleepers : List (Sleeper ι)} {exited : ι → Bool}
    (hstop : p.terminate = true) (htasks : sys.tasks = p.sys.tasks) (hreturns : sys.returns = p.sys.returns) :
    Closed p ⟨sys, sleepers, p.terminate, exited⟩ :=
  ⟨hstop, htasks ▸ List.prefix_rfl, fun _ => hreturns⟩

/-- The worker that moves has a step less before it, the others as many. -/
theorem toLeave_moved {sys : ThreadPool.Sys ι} {sleepers : List (Sleeper ι)} (pc : WorkerPc) (hexit : p.exited w = false)
    (hworker : sys.worker = (p.sys.setWorker w pc).worker) (hless : stepsLeft 0 pc + 1 ≤ stepsLeft 0 (p.sys.worker w))
    (w' : ι) : (⟨sys, sleepers, p.terminate, p.exited⟩ : Pool ι).toLeave w' +
      (if (Label.worker w).isWorker w' then 1 else 0) ≤ p.toLeave w' := by
  simp only [Pool.toLeave, Label.isWorker, decide_eq_true_eq, hworker]
  by_cases he : w = w'
  · subst he
    rw [setWorker_self]
    simpa [hexit] using hless
  · rw [setWorker_of_ne (Ne.symm he), if_neg he]
    exact Nat.le_refl _

/-- A step behind `stop`. -/
theorem closed_step {l : Label ι} (hstop : p.terminate = true) (hs : step p l = some p') :
    Closed p p' ∧ ∀ w, p'.toLeave w + (if l.isWorker w then 1 else 0) ≤ p.toLeave w := by
  cases l with
  | worker w =>
    obtain ⟨hexit, -, hmoves⟩ := workerStep_moves (show p.workerStep w = some p' from hs)
    clear hs
    cases hmoves with
    | leave hpc _ =>
      refine ⟨closed_same hstop rfl rfl, fun w' => ?_⟩
      simp only [Pool.toLeave, Label.isWorker, decide_eq_true_eq]
      by_cases he : w = w'
      · subst he
        simp [hexit, stepsLeft_idle hpc]
      · simp [he, Function.update_of_ne (Ne.symm he)]
    | sleep _ hruns _ | take _ _ _ hruns _ =>
      rw [hstop] at hruns
      cases hruns
    | incr task hpc =>
      exact ⟨closed_same hstop rfl rfl, toLeave_moved (.execute task) hexit rfl (by rw [hpc]; exact Nat.le_refl _)⟩
    | execute task hpc =>
      exact ⟨closed_same hstop rfl rfl, toLeave_moved .decr hexit rfl (by rw [hpc]; exact Nat.le_refl _)⟩
    | decr hpc =>
      exact ⟨closed_same hstop rfl rfl, toLeave_moved .notify hexit rfl (by rw [hpc]; exact Nat.le_refl _)⟩
    | notify sleepers hpc _ =>
      exact ⟨closed_same hstop rfl rfl, toLeave_moved .get hexit rfl (by rw [hpc]; exact Nat.le_refl _)⟩
  | exec i woken =>
    obtain ⟨sys, hexec, hs⟩ := Option.bind_eq_some_iff.mp hs
    obtain ⟨sleepers, -, rfl⟩ := Option.map_eq_some_iff.mp hs
    unfold ThreadPool.Sys.exec at hexec
    split at hexec <;> cases hexec
    exact ⟨⟨hstop, List.prefix_append .., fun _ => rfl⟩, fun w => Nat.le_refl _⟩
  | execReturn i =>
    obtain ⟨sys, hcall, rfl⟩ := Option.map_eq_some_iff.mp hs
    unfold ThreadPool.Sys.execReturn at hcall
    split at hcall <;> cases hcall
    exact ⟨closed_same hstop rfl rfl, fun w => Nat.le_refl _⟩
  | waitForAllDone i =>
    obtain ⟨sys, hcall, rfl⟩ := Option.map_eq_some_iff.mp hs
    unfold ThreadPool.Sys.waitForAllDone at hcall
    split at hcall <;> cases hcall
    exact ⟨closed_same hstop rfl rfl, fun w => Nat.le_refl _⟩
  | look i =>
    have hlook : p.look i = some p' := hs
    unfold Pool.look at hlook
    split at hlook
    · cases hlook
    · obtain ⟨sys, hcall, rfl⟩ := Option.map_eq_some_iff.mp hlook
      obtain ⟨before, -, ⟨htasks, rfl⟩ | ⟨-, rfl⟩⟩ := ThreadPool.look_cases hcall
      · exact ⟨⟨hstop, List.prefix_rfl, fun hne => absurd htasks hne⟩, fun w => Nat.le_refl _⟩
      · exact ⟨closed_same hstop rfl rfl, fun w => Nat.le_refl _⟩
  | spurious t =>
    have hwake : step p (.spurious t) = some p' := hs
    simp only [step, Option.ite_none_right_eq_some, Option.some.injEq] at hwake
    rw [← hwake.2]
    exact ⟨closed_same hstop rfl rfl, fun w => Nat.le_refl _⟩
  | stop =>
    cases hs
    exact ⟨⟨rfl, List.prefix_rfl, fun _ => rfl⟩, fun w => Nat.le_refl _⟩

theorem closed_run {ls : List (Label ι)} (hstop : p.terminate = true) (hr : (machine ι).run p ls = some p') :
    Closed p p' ∧ ∀ w, p'.toLeave w + ls.countP (Label.isWorker w) ≤ p.toLeave w := by
  induction ls generalizing p with
  | nil =>
    simp only [Machine.run_nil, Option.some.injEq] at hr
    subst hr
    exact ⟨⟨hstop, List.prefix_rfl, fun _ => rfl⟩, fun w => Nat.le_refl _⟩
  | cons l ls ih =>
    obtain ⟨p1, h1, h2⟩ := Machine.run_cons.mp hr
    obtain ⟨hclosed, hleave⟩ := closed_step hstop h1
    obtain ⟨hclosed', hleave'⟩ := ih hclosed.terminate h2
    refine ⟨hclosed.trans hclosed', fun w => ?_⟩
    have hw := hleave w
    have hw' := hleave' w
    rw [List.countP_cons]
    omega

/-- **Behind `stop`**, whatever else happens: each worker makes at most five more steps, and
when no worker can make one they have all left, so the joins of `stop` return. What is in the
queue stays there, and then no `waitForAllDone` returns. -/
theorem stopped [Fintype ι] [Nonempty ι] (p p' : Pool ι) (ls : List (Label ι)) (hp : (machine ι).Reachable p)
    (hstop : p.terminate = true) (hr : (machine ι).run p ls = some p') :
    (∀ w, ls.countP (Label.isWorker w) ≤ 5) ∧ ((∀ w, step p' (.worker w) = none) → ∀ w, p'.exited w = true) ∧
      p.sys.tasks <+: p'.sys.tasks ∧ (p.sys.tasks ≠ [] → p'.sys.returns = p.sys.returns) := by
  obtain ⟨hclosed, hleave⟩ := closed_run hstop hr
  have h : Inv p' := inv_inductive.run (inv_inductive.reachable hp) hr
  refine ⟨fun w => ?_, fun hrest w => ?_, hclosed.tasks, hclosed.returns⟩
  · have hw := hleave w
    have h5 := toLeave_le (p := p) (w := w)
    omega
  · exact (at_rest (hrest w)).resolve_right (h.stopped hclosed.terminate w)

/-- A task is in the queue when `stop` comes, and a caller waits for it from then on. -/
theorem stopped_queued : ∃ p p' : Pool Unit,
    (machine Unit).run (.start Unit) [.exec 0 none, .stop] = some p ∧
    (machine Unit).run p [.waitForAllDone 1, .look 1, .worker ()] = some p' ∧
    (∀ w, p'.exited w = true) ∧ [0] <+: p'.sys.tasks ∧ p'.sys.returns = [] := by
  have hrun : (((machine Unit).run (.start Unit) [.exec 0 none, .stop]).any fun p =>
      p.terminate && decide (p.sys.tasks = [0]) && decide (p.sys.returns = []) &&
        ((machine Unit).run p [.waitForAllDone 1, .look 1, .worker ()]).any fun p' =>
          (step p' (.worker ())).isNone) = true := by decide
  obtain ⟨p, hp, hok⟩ := (Option.any_eq_true _ _).mp hrun
  simp only [Bool.and_eq_true, decide_eq_true_eq] at hok
  obtain ⟨⟨⟨hstop, htasks⟩, hreturns⟩, hok⟩ := hok
  obtain ⟨p', hp', hrest⟩ := (Option.any_eq_true _ _).mp hok
  obtain ⟨-, hleft, hprefix, hsame⟩ := stopped p p' _ ⟨_, _, rfl, hp⟩ hstop hp'
  refine ⟨p, p', hp, hp', hleft fun _ => Option.isNone_iff_eq_none.mp hrest, htasks ▸ hprefix, ?_⟩
  rw [hsame (by rw [htasks]; exact List.cons_ne_nil 0 []), hreturns]

end MdInfoSet.L5.ThreadPoolWakeups
