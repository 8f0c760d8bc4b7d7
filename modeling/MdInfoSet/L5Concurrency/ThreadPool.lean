import Mathlib.Logic.Function.Basic
import MdInfoSet.Core.Machine

/-!
# `ThreadPool`

`src/qx_commom/threadpool.h`, while the pool runs. A worker takes a task from the queue under
the lock, counts it in `m_atomic` behind the lock, runs it and counts it off again;
`waitForAllDone` returns as soon as it sees the queue empty under the lock, and `m_atomic` is
not looked at. A step is one critical section, one operation on `m_atomic` or the end of a
task. A thread that waits for the condition variable may look at any time, so what a
notification adds is left out.

Tasks are numbered in the order of their push. `returned`, `finished` and `returns` are
history: the tasks whose `exec` has returned, those that have finished executing, and for
each `waitForAllDone` that has returned what these two were when it began and returned.
-/
namespace MdInfoSet.L5.ThreadPool

inductive WorkerPc where
  | get | wait
  | incr (task : Nat)
  | execute (task : Nat)
  | decr | notify

/-- The task a worker has taken and not finished. -/
def WorkerPc.task : WorkerPc → Option Nat
  | .incr task | .execute task => some task
  | .get | .wait | .decr | .notify => none

/-- `before` is `returned` at the beginning of the call. -/
inductive CallPc where
  | idle
  | pushed (task : Nat)
  | entered (before : List Nat)
  | waiting (before : List Nat)

def CallPc.before : CallPc → Option (List Nat)
  | .entered before | .waiting before => some before
  | .idle | .pushed _ => none

structure WaitReturn where
  before : List Nat
  finished : List Nat
  deriving DecidableEq

structure Sys (ι : Type) where
  tasks : List Nat
  atomic : Int
  worker : ι → WorkerPc
  call : Nat → CallPc
  submitted : Nat
  returned : List Nat
  finished : List Nat
  returns : List WaitReturn

inductive Label (ι : Type) where
  | worker (w : ι)
  | exec (i : Nat)
  | execReturn (i : Nat)
  | waitForAllDone (i : Nat)
  /-- A `waitForAllDone` takes the lock and looks at the queue. -/
  | look (i : Nat)

/-- Behind `start`. -/
def Sys.start (ι : Type) : Sys ι := ⟨[], 0, fun _ => .get, fun _ => .idle, 0, [], [], []⟩

variable {ι : Type}

def Sys.setWorker [DecidableEq ι] (s : Sys ι) (w : ι) (pc : WorkerPc) : Sys ι :=
  { s with worker := Function.update s.worker w pc }

def Sys.setCall (s : Sys ι) (i : Nat) (pc : CallPc) : Sys ι := { s with call := Function.update s.call i pc }

/-- mirrors src/qx_commom/threadpool.h:111-149 -/
def Sys.workerStep [DecidableEq ι] (s : Sys ι) (w : ι) : Option (Sys ι) :=
  match s.worker w with
  | .get =>
    match s.tasks with
    | [] => some (s.setWorker w .wait)
    | task :: tasks => some { s.setWorker w (.incr task) with tasks := tasks }
  | .wait =>
    match s.tasks with
    | [] => none
    | task :: tasks => some { s.setWorker w (.incr task) with tasks := tasks }
  | .incr task => some { s.setWorker w (.execute task) with atomic := s.atomic + 1 }
  | .execute task => some { s.setWorker w .decr with finished := s.finished ++ [task] }
  | .decr => some { s.setWorker w .notify with atomic := s.atomic - 1 }
  | .notify => some (s.setWorker w .get)

/-- mirrors src/qx_commom/threadpool.h:85-99, under the lock -/
def Sys.exec (s : Sys ι) (i : Nat) : Option (Sys ι) :=
  match s.call i with
  | .idle =>
    some { s.setCall i (.pushed s.submitted) with
      tasks := s.tasks ++ [s.submitted], submitted := s.submitted + 1 }
  | _ => none

def Sys.execReturn (s : Sys ι) (i : Nat) : Option (Sys ι) :=
  match s.call i with
  | .pushed task => some { s.setCall i .idle with returned := s.returned ++ [task] }
  | _ => none

def Sys.waitForAllDone (s : Sys ι) (i : Nat) : Option (Sys ι) :=
  match s.call i with
  | .idle => some (s.setCall i (.entered s.returned))
  | _ => none

/-- mirrors src/qx_commom/threadpool.h:102-108 -/
def Sys.look (s : Sys ι) (i : Nat) : Option (Sys ι) :=
  match (s.call i).before with
  | none => none
  | some before =>
    if s.tasks = [] then some { s.setCall i .idle with returns := s.returns ++ [⟨before, s.finished⟩] }
    else some (s.setCall i (.waiting before))

def machine (ι : Type) [DecidableEq ι] : Machine (Sys ι) (Label ι) where
  init s := s = .start ι
  step s
    | .worker w => s.workerStep w
    | .exec i => s.exec i
    | .execReturn i => s.execReturn i
    | .waitForAllDone i => s.waitForAllDone i
    | .look i => s.look i

/-- Every `waitForAllDone` that has returned waited for what it had to. -/
def Waited (s : Sys ι) : Prop := ∀ r ∈ s.returns, ∀ task ∈ r.before, task ∈ r.finished

/-- The condition on a step: when `waitForAllDone` sees the queue empty, no worker has taken
and not finished a task whose `exec` had returned when the call began. -/
def NoneTaken (s : Sys ι) : Label ι → Prop
  | .look i => s.tasks = [] → ∀ before, (s.call i).before = some before →
      ∀ w task, (s.worker w).task = some task → task ∉ before
  | .worker _ | .exec _ | .execReturn _ | .waitForAllDone _ => True

/-! ## Where the tasks are -/

/-- Each task that was pushed is in one place: in the queue, with one worker, or finished. -/
structure Inv (s : Sys ι) : Prop where
  nodup : s.tasks.Nodup
  queued : ∀ task ∈ s.tasks, task < s.submitted
  taken : ∀ w task, (s.worker w).task = some task → task < s.submitted ∧ task ∉ s.tasks ∧ task ∉ s.finished
  taken_inj : ∀ w w' task, (s.worker w).task = some task → (s.worker w').task = some task → w = w'
  finished : ∀ task ∈ s.finished, task < s.submitted ∧ task ∉ s.tasks
  placed : ∀ task < s.submitted, task ∈ s.tasks ∨ (∃ w, (s.worker w).task = some task) ∨ task ∈ s.finished
  pushed : ∀ i task, s.call i = .pushed task → task < s.submitted
  returned : ∀ task ∈ s.returned, task < s.submitted
  before : ∀ i before, (s.call i).before = some before → ∀ task ∈ before, task < s.submitted

theorem inv_start : Inv (.start ι) :=
  ⟨List.nodup_nil, nofun, nofun, nofun, nofun, fun _ h => absurd h (Nat.not_lt_zero _), nofun, nofun, nofun⟩

section Steps

variable [DecidableEq ι] {s s' : Sys ι}

/-- A worker moves on and keeps the task it has. -/
theorem inv_setWorker (h : Inv s) {w : ι} {pc : WorkerPc} (hpc : pc.task = (s.worker w).task) :
    Inv (s.setWorker w pc) := by
  have htask : ∀ w', ((s.setWorker w pc).worker w').task = (s.worker w').task := by
    intro w'
    simp only [Sys.setWorker]
    by_cases hw : w' = w
    · subst hw
      rw [Function.update_self, hpc]
    · rw [Function.update_of_ne hw]
  exact { h with
    taken := fun w' task ht => h.taken w' task (by rwa [htask] at ht)
    taken_inj := fun w₁ w₂ task h1 h2 => h.taken_inj w₁ w₂ task (by rwa [htask] at h1) (by rwa [htask] at h2)
    placed := fun task ht => by simp only [htask]; exact h.placed task ht }

/-- A worker takes the head of the queue. -/
theorem inv_take (h : Inv s) {w : ι} {task : Nat} {tasks : List Nat} (hw : (s.worker w).task = none)
    (htasks : s.tasks = task :: tasks) : Inv { s.setWorker w (.incr task) with tasks := tasks } := by
  have hnodup := h.nodup
  rw [htasks, List.nodup_cons] at hnodup
  have hlt := h.queued task (by rw [htasks]; exact List.mem_cons_self)
  have hsub : ∀ t ∈ tasks, t ∈ s.tasks := fun t ht => by rw [htasks]; exact List.mem_cons_of_mem _ ht
  have hfresh : task ∉ s.finished := fun hf => (h.finished task hf).2 (by rw [htasks]; exact List.mem_cons_self)
  have htaken : ∀ w' t, ((s.setWorker w (.incr task)).worker w').task = some t →
      (w' = w ∧ t = task) ∨ (w' ≠ w ∧ (s.worker w').task = some t) := by
    intro w' t ht
    simp only [Sys.setWorker] at ht
    by_cases hw' : w' = w
    · subst hw'
      rw [Function.update_self] at ht
      exact .inl ⟨rfl, (Option.some.inj ht).symm⟩
    · rw [Function.update_of_ne hw'] at ht
      exact .inr ⟨hw', ht⟩
  have hother : ∀ w' t, (s.worker w').task = some t → t ≠ task := by
    intro w' t ht he
    exact (h.taken w' t ht).2.1 (by rw [htasks, he]; exact List.mem_cons_self)
  refine { h with
    nodup := hnodup.2, queued := fun t ht => h.queued t (hsub t ht), taken := fun w' t ht => ?_,
    taken_inj := fun w₁ w₂ t h1 h2 => ?_, finished := fun t ht => ?_, placed := fun t ht => ?_ }
  · rcases htaken w' t ht with ⟨-, rfl⟩ | ⟨-, ht⟩
    · exact ⟨hlt, hnodup.1, hfresh⟩
    · obtain ⟨h1, h2, h3⟩ := h.taken w' t ht
      exact ⟨h1, fun hm => h2 (hsub t hm), h3⟩
  · rcases htaken w₁ t h1 with ⟨hw₁, he₁⟩ | ⟨-, ht₁⟩ <;> rcases htaken w₂ t h2 with ⟨hw₂, he₂⟩ | ⟨-, ht₂⟩
    · rw [hw₁, hw₂]
    · exact absurd he₁ (hother w₂ t ht₂)
    · exact absurd he₂ (hother w₁ t ht₁)
    · exact h.taken_inj w₁ w₂ t ht₁ ht₂
  · obtain ⟨h1, h2⟩ := h.finished t ht
    exact ⟨h1, fun hm => h2 (hsub t hm)⟩
  · rcases h.placed t ht with hq | ⟨w', hw'⟩ | hf
    · rw [htasks] at hq
      rcases List.mem_cons.mp hq with rfl | hq
      · exact .inr (.inl ⟨w, by simp [Sys.setWorker, WorkerPc.task]⟩)
      · exact .inl hq
    · refine .inr (.inl ⟨w', ?_⟩)
      have hne : w' ≠ w := fun he => by rw [he, hw] at hw'; cases hw'
      simpa [Sys.setWorker, Function.update_of_ne hne] using hw'
    · exact .inr (.inr hf)

/-- A worker finishes its task. -/
theorem inv_finish (h : Inv s) {w : ι} {task : Nat} (hw : (s.worker w).task = some task) :
    Inv { s.setWorker w .decr with finished := s.finished ++ [task] } := by
  obtain ⟨hlt, hqueue, -⟩ := h.taken w task hw
  have htaken : ∀ w' t, ((s.setWorker w .decr).worker w').task = some t →
      w' ≠ w ∧ (s.worker w').task = some t := by
    intro w' t ht
    simp only [Sys.setWorker] at ht
    by_cases hw' : w' = w
    · subst hw'
      rw [Function.update_self] at ht
      cases ht
    · rw [Function.update_of_ne hw'] at ht
      exact ⟨hw', ht⟩
  refine { h with
    taken := fun w' t ht => ?_
    taken_inj := fun w₁ w₂ t h1 h2 => h.taken_inj w₁ w₂ t (htaken _ _ h1).2 (htaken _ _ h2).2
    finished := fun t ht => ?_, placed := fun t ht => ?_ }
  · obtain ⟨hne, ht⟩ := htaken w' t ht
    obtain ⟨h1, h2, h3⟩ := h.taken w' t ht
    refine ⟨h1, h2, fun hf => ?_⟩
    rcases List.mem_append.mp hf with hf | hf
    · exact h3 hf
    · rw [List.mem_singleton.mp hf] at ht
      exact hne (h.taken_inj w' w task ht hw)
  · rcases List.mem_append.mp ht with ht | ht
    · exact h.finished t ht
    · rw [List.mem_singleton.mp ht]
      exact ⟨hlt, hqueue⟩
  · rcases h.placed t ht with hq | ⟨w', hw'⟩ | hf
    · exact .inl hq
    · by_cases he : w' = w
      · subst he
        rw [hw, Option.some.injEq] at hw'
        exact .inr (.inr (by simp [hw']))
      · refine .inr (.inl ⟨w', ?_⟩)
        simpa [Sys.setWorker, Function.update_of_ne he] using hw'
    · exact .inr (.inr (List.mem_append_left _ hf))

theorem inv_workerStep (h : Inv s) {w : ι} (hs : s.workerStep w = some s') :
    Inv s' ∧ s'.returns = s.returns := by
  unfold Sys.workerStep at hs
  cases hpc : s.worker w with
  | get =>
    have hnone : (s.worker w).task = none := by rw [hpc]; rfl
    cases htasks : s.tasks with
    | nil =>
      simp only [hpc, htasks] at hs
      cases hs
      exact ⟨inv_setWorker h hnone.symm, rfl⟩
    | cons task tasks =>
      simp only [hpc, htasks] at hs
      cases hs
      exact ⟨inv_take h hnone htasks, rfl⟩
  | wait =>
    have hnone : (s.worker w).task = none := by rw [hpc]; rfl
    cases htasks : s.tasks with
    | nil =>
      simp only [hpc, htasks] at hs
      cases hs
    | cons task tasks =>
      simp only [hpc, htasks] at hs
      cases hs
      exact ⟨inv_take h hnone htasks, rfl⟩
  | incr task =>
    simp only [hpc] at hs
    cases hs
    have hmove : Inv (s.setWorker w (.execute task)) := inv_setWorker h (by rw [hpc]; rfl)
    exact ⟨{ hmove with }, rfl⟩
  | execute task =>
    simp only [hpc] at hs
    cases hs
    exact ⟨inv_finish h (by rw [hpc]; rfl), rfl⟩
  | decr =>
    simp only [hpc] at hs
    cases hs
    have hmove : Inv (s.setWorker w .notify) := inv_setWorker h (by rw [hpc]; rfl)
    exact ⟨{ hmove with }, rfl⟩
  | notify =>
    simp only [hpc] at hs
    cases hs
    exact ⟨inv_setWorker h (by rw [hpc]; rfl), rfl⟩

end Steps

section Calls

variable {s s' : Sys ι} {i : Nat}

/-- A call moves on. -/
theorem inv_setCall (h : Inv s) {pc : CallPc} (hpushed : ∀ task, pc = .pushed task → task < s.submitted)
    (hbefore : ∀ before, pc.before = some before → ∀ task ∈ before, task < s.submitted) :
    Inv (s.setCall i pc) :=
  { h with
    pushed := fun j task hj => by
      simp only [Sys.setCall] at hj
      by_cases hji : j = i
      · subst hji
        rw [Function.update_self] at hj
        exact hpushed task hj
      · rw [Function.update_of_ne hji] at hj
        exact h.pushed j task hj
    before := fun j before hj => by
      simp only [Sys.setCall] at hj
      by_cases hji : j = i
      · subst hji
        rw [Function.update_self] at hj
        exact hbefore before hj
      · rw [Function.update_of_ne hji] at hj
        exact h.before j before hj }

theorem inv_exec (h : Inv s) (hs : s.exec i = some s') : Inv s' ∧ s'.returns = s.returns := by
  unfold Sys.exec at hs
  split at hs <;> cases hs
  have hlt : s.submitted ∉ s.tasks := fun hm => Nat.lt_irrefl _ (h.queued _ hm)
  have hgrow : Inv { s with tasks := s.tasks ++ [s.submitted], submitted := s.submitted + 1 } := by
    refine ⟨?_, fun t ht => ?_, fun w t ht => ?_, h.taken_inj, fun t ht => ?_, fun t ht => ?_,
      fun j t hj => Nat.lt_succ_of_lt (h.pushed j t hj), fun t ht => Nat.lt_succ_of_lt (h.returned t ht),
      fun j before hj t ht => Nat.lt_succ_of_lt (h.before j before hj t ht)⟩
    · rw [List.nodup_append]
      refine ⟨h.nodup, by simp, fun a ha b hb he => hlt ?_⟩
      rwa [← List.mem_singleton.mp hb, ← he]
    · rcases List.mem_append.mp ht with ht | ht
      · exact Nat.lt_succ_of_lt (h.queued t ht)
      · rw [List.mem_singleton.mp ht]
        exact Nat.lt_succ_self _
    · obtain ⟨h1, h2, h3⟩ := h.taken w t ht
      refine ⟨Nat.lt_succ_of_lt h1, fun hm => ?_, h3⟩
      rcases List.mem_append.mp hm with hm | hm
      · exact h2 hm
      · exact Nat.lt_irrefl _ (List.mem_singleton.mp hm ▸ h1)
    · obtain ⟨h1, h2⟩ := h.finished t ht
      refine ⟨Nat.lt_succ_of_lt h1, fun hm => ?_⟩
      rcases List.mem_append.mp hm with hm | hm
      · exact h2 hm
      · exact Nat.lt_irrefl _ (List.mem_singleton.mp hm ▸ h1)
    · rcases Nat.lt_succ_iff_lt_or_eq.mp ht with ht | rfl
      · rcases h.placed t ht with hq | hw | hf
        · exact .inl (List.mem_append_left _ hq)
        · exact .inr (.inl hw)
        · exact .inr (.inr hf)
      · exact .inl (by simp)
  exact ⟨inv_setCall hgrow (fun t ht => by cases ht; exact Nat.lt_succ_self _) nofun, rfl⟩

theorem inv_execReturn (h : Inv s) (hs : s.execReturn i = some s') : Inv s' ∧ s'.returns = s.returns := by
  unfold Sys.execReturn at hs
  split at hs <;> cases hs
  rename_i task hpc
  have hidle : Inv (s.setCall i .idle) := inv_setCall h nofun nofun
  refine ⟨{ hidle with returned := fun t ht => ?_ }, rfl⟩
  rcases List.mem_append.mp ht with ht | ht
  · exact h.returned t ht
  · rw [List.mem_singleton.mp ht]
    exact h.pushed i task hpc

theorem inv_waitForAllDone (h : Inv s) (hs : s.waitForAllDone i = some s') :
    Inv s' ∧ s'.returns = s.returns := by
  unfold Sys.waitForAllDone at hs
  split at hs <;> cases hs
  exact ⟨inv_setCall h nofun fun before hb => by cases hb; exact h.returned, rfl⟩

/-- A look at the queue returns, or the call waits. -/
theorem look_cases (hs : s.look i = some s') : ∃ before, (s.call i).before = some before ∧
    ((s.tasks = [] ∧ s' = { s.setCall i .idle with returns := s.returns ++ [⟨before, s.finished⟩] }) ∨
      (s.tasks ≠ [] ∧ s' = s.setCall i (.waiting before))) := by
  unfold Sys.look at hs
  split at hs
  · cases hs
  · refine ⟨_, ‹_›, ?_⟩
    split at hs <;> cases hs
    · exact .inl ⟨‹_›, rfl⟩
    · exact .inr ⟨‹_›, rfl⟩

theorem inv_look (h : Inv s) (hs : s.look i = some s') : Inv s' := by
  obtain ⟨before, hb, ⟨-, rfl⟩ | ⟨-, rfl⟩⟩ := look_cases hs
  · have hidle : Inv (s.setCall i .idle) := inv_setCall h nofun nofun
    exact { hidle with }
  · exact inv_setCall h nofun fun b hb' => by cases hb'; exact h.before i before hb

/-- With the queue empty, what is pushed is finished or taken. -/
theorem finished_iff (h : Inv s) (htasks : s.tasks = []) {before : List Nat}
    (hb : ∀ task ∈ before, task < s.submitted) : (∀ task ∈ before, task ∈ s.finished) ↔
      ∀ w task, (s.worker w).task = some task → task ∉ before := by
  constructor
  · intro hf w task hw hm
    exact (h.taken w task hw).2.2 (hf task hm)
  · intro hnone task hm
    rcases h.placed task (hb task hm) with hq | ⟨w, hw⟩ | hf
    · rw [htasks] at hq
      cases hq
    · exact absurd hm (hnone w task hw)
    · exact hf

/-- A look keeps the property exactly if it meets the condition. -/
theorem waited_look (h : Inv s) (hP : Waited s) (hs : s.look i = some s') :
    Waited s' ↔ NoneTaken s (.look i) := by
  obtain ⟨before, hb, ⟨htasks, rfl⟩ | ⟨htasks, rfl⟩⟩ := look_cases hs
  · have hiff := finished_iff h htasks (h.before i before hb)
    simp only [Waited, NoneTaken, List.mem_append, List.mem_singleton, hb, Option.some.injEq, forall_eq',
      htasks, forall_const]
    rw [← hiff]
    constructor
    · exact fun hall => hall _ (.inr rfl)
    · rintro hf r (hr | rfl)
      · exact hP r hr
      · exact hf
  · exact iff_of_true hP fun he => absurd he htasks

end Calls

theorem inv_step [DecidableEq ι] {s s' : Sys ι} {l : Label ι} (h : Inv s)
    (hs : (machine ι).step s l = some s') : Inv s' := by
  cases l with
  | worker w => exact (inv_workerStep h hs).1
  | exec i => exact (inv_exec h hs).1
  | execReturn i => exact (inv_execReturn h hs).1
  | waitForAllDone i => exact (inv_waitForAllDone h hs).1
  | look i => exact inv_look h hs

theorem waited_step [DecidableEq ι] {s s' : Sys ι} {l : Label ι} (h : Inv s) (hP : Waited s)
    (hs : (machine ι).step s l = some s') : Waited s' ↔ NoneTaken s l := by
  have hkeep : s'.returns = s.returns → Waited s' := fun hr => by rw [Waited, hr]; exact hP
  cases l with
  | worker w => exact iff_of_true (hkeep (inv_workerStep h hs).2) trivial
  | exec i => exact iff_of_true (hkeep (inv_exec h hs).2) trivial
  | execReturn i => exact iff_of_true (hkeep (inv_execReturn h hs).2) trivial
  | waitForAllDone i => exact iff_of_true (hkeep (inv_waitForAllDone h hs).2) trivial
  | look i => exact waited_look h hP hs

/-- **Exact condition.** Every `waitForAllDone` of a run has waited for the tasks pushed before
it if and only if none returns while a worker is still at one of them. -/
theorem waited_iff [DecidableEq ι] {s : Sys ι} {ls : List (Label ι)}
    (hr : (machine ι).run (.start ι) ls = some s) :
    (machine ι).Throughout Waited (.start ι) ls ↔ (machine ι).Along NoneTaken (.start ι) ls :=
  Machine.throughout_iff_along (fun _ _ _ h hs => inv_step h hs) (fun _ _ _ h hP hs => waited_step h hP hs)
    inv_start nofun hr

/-- One task of two workers, taken and finished before the wait. -/
theorem waited_iff_finished : ∃ s, (machine Bool).run (.start Bool) [.exec 0, .execReturn 0, .worker true,
      .worker true, .worker true, .waitForAllDone 0, .look 0] = some s ∧ s.returns = [⟨[0], [0]⟩] ∧
    ((machine Bool).Throughout Waited (.start Bool) [.exec 0, .execReturn 0, .worker true,
        .worker true, .worker true, .waitForAllDone 0, .look 0] ↔
      (machine Bool).Along NoneTaken (.start Bool) [.exec 0, .execReturn 0, .worker true,
        .worker true, .worker true, .waitForAllDone 0, .look 0]) := by
  have hrun : ((machine Bool).run (.start Bool) [.exec 0, .execReturn 0, .worker true,
      .worker true, .worker true, .waitForAllDone 0, .look 0]).map (·.returns) = some [⟨[0], [0]⟩] := by decide
  obtain ⟨s, hs, hreturns⟩ := Option.map_eq_some_iff.mp hrun
  exact ⟨s, hs, hreturns, waited_iff hs⟩

/-- **Counterexample.** A worker has taken the only task and not begun it when
`waitForAllDone` sees the empty queue. -/
theorem returns_while_taken :
    ¬ ∀ ls : List (Label Unit), (machine Unit).Throughout Waited (.start Unit) ls := by
  intro h
  have hrun : ((machine Unit).run (.start Unit) [.exec 0, .execReturn 0, .worker (), .waitForAllDone 0,
      .look 0]).map (·.returns) = some [⟨[0], []⟩] := by decide
  obtain ⟨s, hs, hreturns⟩ := Option.map_eq_some_iff.mp hrun
  have hfinished := h _ _ s List.prefix_rfl hs ⟨[0], []⟩ (by rw [hreturns]; exact List.mem_cons_self) 0
    List.mem_cons_self
  cases hfinished

end MdInfoSet.L5.ThreadPool
