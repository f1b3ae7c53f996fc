import DomainProcessing.BoundedQueue
import DomainProcessing.Runs
import Mathlib.Algebra.BigOperators.Group.Multiset.Basic
import Mathlib.Tactic.Abel

namespace DomainProcessing

open Runs

/-- Where `Worker._run_loop` is: at the test of its loop, in the `wait_for` around
`queue.get`, or in `_process_task`. -/
inductive LoopPoint (α : Type*)
  | check
  | receive
  | process (task : α)

/-- A worker of the pool; `loop` is `none` once its asyncio task is done. -/
structure Worker (α : Type*) where
  running : Bool
  loop : Option (LoopPoint α)

inductive LoopStep
  | check
  | receive
  | timeout
  | finish

variable {α : Type*}

/-- One step of `_run_loop`, with the tasks that it has processed. The timeout may
overtake an item that has just arrived. An exception of the handler is logged and
the loop goes on, as after a return; the `log_event` between `queue.get` and the `try` is
taken not to raise. -/
def loopNext (queue : BoundedQueue α) (w : Worker α) :
    LoopStep → Option (BoundedQueue α × Worker α × List α)
  | .check =>
    match w.loop with
    | some .check => some (queue, { w with loop := if w.running then some .receive else none }, [])
    | _ => none
  | .receive =>
    match w.loop with
    | some .receive => queue.get.map fun p => (p.2, { w with loop := some (.process p.1) }, [])
    | _ => none
  | .timeout =>
    match w.loop with
    | some .receive => some (queue, { w with loop := some .check }, [])
    | _ => none
  | .finish =>
    match w.loop with
    | some (.process task) => some (queue, { w with loop := some .check }, [task])
    | _ => none

/-- How far the stop has come: `TaskManager.stop` waits for its cancelled polling
loop and then for its cancelled recovery loop, `WorkerPool.stop` is about to stop
a worker or awaits the task of one. -/
inductive StopStage
  | pollingLoop
  | recoveryLoop
  | stopping (worker : Nat)
  | joining (worker : Nat)
  | returned
  deriving DecidableEq

/-- `recovering` are the tasks that the recovery cycle under way has still to put.
It is cancelled only after the polling loop is gone. -/
structure StopState (α : Type*) where
  queue : BoundedQueue α
  recovering : List α
  workers : List (Worker α)
  stage : StopStage
  processed : List α

inductive StopStep
  | putRecovered
  | pollingLoopEnds
  | recoveryLoopEnds
  | work (worker : Nat) (step : LoopStep)
  | stopWorker
  | joined

/-- `TaskManager.stop` followed by `WorkerPool.stop(graceful=True)`, interleaved
with the loops of the workers. -/
def stopNext (s : StopState α) : StopStep → Option (StopState α)
  | .putRecovered =>
    match s.stage, s.recovering with
    | .pollingLoop, task :: rest =>
      (s.queue.put task).map fun queue => { s with queue := queue, recovering := rest }
    | _, _ => none
  | .pollingLoopEnds =>
    match s.stage with
    | .pollingLoop => some { s with stage := .recoveryLoop }
    | _ => none
  | .recoveryLoopEnds =>
    match s.stage with
    | .recoveryLoop => some { s with stage := .stopping 0 }
    | _ => none
  | .work i step =>
    (s.workers[i]?).bind fun w => (loopNext s.queue w step).map fun p =>
      { s with
        queue := p.1
        workers := s.workers.set i p.2.1
        processed := s.processed ++ p.2.2 }
  | .stopWorker =>
    match s.stage with
    | .stopping i =>
      match s.workers[i]? with
      | none => some { s with stage := .returned }
      | some w =>
        if w.running then
          some { s with
            workers := s.workers.set i { w with running := false }
            stage := .joining i }
        else some { s with stage := .stopping (i + 1) }
    | _ => none
  | .joined =>
    match s.stage with
    | .joining i =>
      match s.workers[i]? with
      | some ⟨_, none⟩ => some { s with stage := .stopping (i + 1) }
      | _ => none
    | _ => none

/-- What the stop of a running pool finds. The settings demand at least one worker. -/
structure RunningPool (α : Type*) where
  queue : BoundedQueue α
  recovering : List α
  loops : List (LoopPoint α)
  staffed : loops ≠ []

/-- The state when the stop begins. -/
def RunningPool.stop (pool : RunningPool α) : StopState α where
  queue := pool.queue
  recovering := pool.recovering
  workers := pool.loops.map fun point => ⟨true, some point⟩
  stage := .pollingLoop
  processed := []

/-- The queue is empty and everything that was on it has been processed. -/
def StopState.Drained (queue : BoundedQueue α) (s : StopState α) : Prop :=
  s.queue.items = [] ∧ queue.items.Subperm s.processed

/-- A worker that has been told to stop leaves its loop while there is work on the
queue and nobody else is left. -/
def LastLeaves (s : StopState α) : StopStep → Prop
  | .work i .check =>
    (∃ w, s.workers[i]? = some w ∧ w.running = false) ∧ s.queue.items ≠ [] ∧
      ∀ j w, j ≠ i → s.workers[j]? = some w → w.loop = none
  | _ => False

def Worker.hand (w : Worker α) : Multiset α :=
  match w.loop with
  | some (.process task) => {task}
  | _ => 0

variable {queue queue' : BoundedQueue α} {w w' : Worker α} {act : LoopStep} {done : List α}

structure LoopFacts (queue queue' : BoundedQueue α) (w w' : Worker α) (act : LoopStep)
    (done : List α) : Prop where
  alive : w.loop ≠ none
  running : w'.running = w.running
  items : queue'.items <:+ queue.items
  tasks : ↑done + w'.hand + ↑queue'.items = w.hand + ↑queue.items
  leaves : w'.loop = none ↔ act = .check ∧ w.running = false
  unchanged : w'.loop = none → queue' = queue

theorem loopNext_facts (h : loopNext queue w act = some (queue', w', done)) :
    LoopFacts queue queue' w w' act done := by
  obtain ⟨running, loop⟩ := w
  unfold loopNext at h
  cases act with
  | check =>
    obtain _ | _ | _ | _ := loop <;> cases h
    cases running
    · exact ⟨by simp, rfl, List.suffix_rfl, by simp [Worker.hand], by simp, fun _ => rfl⟩
    · exact ⟨by simp, rfl, List.suffix_rfl, by simp [Worker.hand], by simp, fun _ => rfl⟩
  | receive =>
    cases loop with
    | none => cases h
    | some point =>
      cases point with
      | check => cases h
      | process task => cases h
      | receive =>
        obtain ⟨⟨task, rest⟩, taken, same⟩ := Option.map_eq_some_iff.mp h
        cases same
        obtain ⟨items, -⟩ := BoundedQueue.get_eq taken
        refine ⟨by simp, rfl, ?_, ?_, by simp, by simp⟩
        · rw [items]
          exact List.suffix_cons task _
        · rw [items]
          simp [Worker.hand]
  | timeout =>
    obtain _ | _ | _ | _ := loop <;> cases h
    exact ⟨by simp, rfl, List.suffix_rfl, by simp [Worker.hand], by simp, by simp⟩
  | finish =>
    obtain _ | _ | _ | task := loop <;> cases h
    exact ⟨by simp, rfl, List.suffix_rfl, by simp [Worker.hand], by simp, by simp⟩

/-- What a step needs and does. -/
inductive StopEffect (s : StopState α) : StopStep → StopState α → Prop
  | putRecovered {task rest queue'} : s.stage = .pollingLoop → s.recovering = task :: rest →
      s.queue.put task = some queue' →
      StopEffect s .putRecovered { s with queue := queue', recovering := rest }
  | pollingLoopEnds : s.stage = .pollingLoop →
      StopEffect s .pollingLoopEnds { s with stage := .recoveryLoop }
  | recoveryLoopEnds : s.stage = .recoveryLoop →
      StopEffect s .recoveryLoopEnds { s with stage := .stopping 0 }
  | work {i : Nat} {w act queue' w' done} : s.workers[i]? = some w →
      LoopFacts s.queue queue' w w' act done →
      StopEffect s (.work i act) { s with
        queue := queue'
        workers := s.workers.set i w'
        processed := s.processed ++ done }
  | told {i : Nat} {w} : s.stage = .stopping i → s.workers[i]? = some w →
      StopEffect s .stopWorker { s with
        workers := s.workers.set i { w with running := false }
        stage := .joining i }
  | skipped {i : Nat} {w} : s.stage = .stopping i → s.workers[i]? = some w → w.running = false →
      StopEffect s .stopWorker { s with stage := .stopping (i + 1) }
  | returned {i : Nat} : s.stage = .stopping i → s.workers[i]? = none →
      StopEffect s .stopWorker { s with stage := .returned }
  | joined {i : Nat} {w} : s.stage = .joining i → s.workers[i]? = some w → w.loop = none →
      StopEffect s .joined { s with stage := .stopping (i + 1) }

variable {s s' : StopState α} {a : StopStep} {i : Nat}

theorem stopNext_effect (h : stopNext s a = some s') : StopEffect s a s' := by
  cases a with
  | putRecovered =>
    simp only [stopNext] at h
    split at h
    next task rest turn held =>
      obtain ⟨queue', put, rfl⟩ := Option.map_eq_some_iff.mp h
      exact .putRecovered turn held put
    next => cases h
  | pollingLoopEnds =>
    simp only [stopNext] at h
    split at h
    next turn =>
      cases Option.some.inj h
      exact .pollingLoopEnds turn
    next => cases h
  | recoveryLoopEnds =>
    simp only [stopNext] at h
    split at h
    next turn =>
      cases Option.some.inj h
      exact .recoveryLoopEnds turn
    next => cases h
  | work i act =>
    obtain ⟨w, at_i, h⟩ := Option.bind_eq_some_iff.mp h
    obtain ⟨⟨queue', w', done⟩, next, rfl⟩ := Option.map_eq_some_iff.mp h
    exact .work at_i (loopNext_facts next)
  | stopWorker =>
    simp only [stopNext] at h
    split at h
    next i turn =>
      split at h
      next none_left =>
        cases Option.some.inj h
        exact .returned turn none_left
      next w at_i =>
        split at h
        next =>
          cases Option.some.inj h
          exact .told turn at_i
        next stopped =>
          cases Option.some.inj h
          exact .skipped turn at_i (by simpa using stopped)
    next => cases h
  | joined =>
    simp only [stopNext] at h
    split at h
    next i turn =>
      split at h
      next at_i =>
        cases Option.some.inj h
        exact .joined turn at_i rfl
      next => cases h
    next => cases h

theorem sum_hands_set {workers : List (Worker α)} {i : Nat} (at_i : workers[i]? = some w)
    (w' : Worker α) : ((workers.set i w').map Worker.hand).sum + w.hand =
      (workers.map Worker.hand).sum + w'.hand := by
  induction workers generalizing i with
  | nil => simp at at_i
  | cons first others ih =>
    cases i with
    | zero =>
      cases Option.some.inj at_i
      simp only [List.set_cons_zero, List.map_cons, List.sum_cons]
      abel
    | succ i =>
      rw [List.getElem?_cons_succ] at at_i
      simp only [List.set_cons_succ, List.map_cons, List.sum_cons, add_assoc, ih at_i]

/-- All tasks that are still to be put, on the queue, in a worker's hands or processed. -/
def StopState.tasks (s : StopState α) : Multiset α :=
  ↑s.processed + (s.workers.map Worker.hand).sum + ↑s.queue.items + ↑s.recovering

/-- The pool has begun to stop the worker. -/
def StopStage.Reached (j : Nat) : StopStage → Prop
  | .stopping i => j < i
  | .joining i => j ≤ i
  | .returned => True
  | _ => False

/-- The pool is done with the worker. -/
def StopStage.Past (j : Nat) : StopStage → Prop
  | .stopping i | .joining i => j < i
  | .returned => True
  | _ => False

/-- A worker and how far the pool has come with it. -/
structure Placed (stage : StopStage) (j : Nat) (w : Worker α) : Prop where
  running : w.running = true → w.loop ≠ none
  reached : w.running = false → stage.Reached j
  past : stage.Past j → w.loop = none

structure Stopping (pool : RunningPool α) (s : StopState α) : Prop where
  staffed : s.workers ≠ []
  tasks : s.tasks = pool.stop.tasks
  put : ∃ put, pool.recovering = put ++ s.recovering
  placed : ∀ (j : Nat) (w : Worker α), s.workers[j]? = some w → Placed s.stage j w

variable {pool : RunningPool α} {stage : StopStage}

theorem Stopping.start (pool : RunningPool α) : Stopping pool pool.stop where
  staffed := by simpa [RunningPool.stop] using pool.staffed
  tasks := rfl
  put := ⟨[], rfl⟩
  placed := by
    intro j w at_j
    obtain ⟨point, -, rfl⟩ := List.mem_map.mp (List.mem_of_getElem? at_j)
    exact ⟨fun _ => by simp, fun stopped => (by cases stopped), fun past => past.elim⟩

/-- A worker at another index, or the one that was written. -/
theorem getElem?_set_cases {workers : List (Worker α)} {j : Nat} {v : Worker α}
    (h : (workers.set i w')[j]? = some v) :
    (j = i ∧ v = w') ∨ (j ≠ i ∧ workers[j]? = some v) := by
  rw [List.getElem?_set] at h
  split at h
  next same =>
    split at h
    next => exact Or.inl ⟨same.symm, (Option.some.inj h).symm⟩
    next => cases h
  next other => exact Or.inr ⟨fun e => other e.symm, h⟩

theorem Placed.work (placed : Placed stage i w) (facts : LoopFacts queue queue' w w' act done) :
    Placed stage i w' where
  running := by
    intro runs gone
    have stopped := (facts.leaves.mp gone).2
    rw [facts.running, stopped] at runs
    cases runs
  reached := fun stopped => placed.reached (facts.running ▸ stopped)
  past := fun past => absurd (placed.past past) facts.alive

theorem Placed.to_stage {j : Nat} {stage' : StopStage} (placed : Placed stage j w)
    (reached : stage.Reached j → stage'.Reached j) (past : stage'.Past j → stage.Past j) :
    Placed stage' j w :=
  ⟨placed.running, fun stopped => reached (placed.reached stopped), fun h => placed.past (past h)⟩

theorem LoopFacts.balance {workers : List (Worker α)} (facts : LoopFacts queue queue' w w' act done)
    (at_i : workers[i]? = some w) (processed : List α) :
    (↑(processed ++ done) + ((workers.set i w').map Worker.hand).sum + ↑queue'.items : Multiset α) =
      ↑processed + (workers.map Worker.hand).sum + ↑queue.items := by
  have sum := sum_hands_set at_i w'
  have kept := facts.tasks
  apply add_right_cancel (b := w.hand)
  calc
    _ = ↑processed + (((workers.set i w').map Worker.hand).sum + w.hand) +
          (↑done + ↑queue'.items) := by
      rw [← Multiset.coe_add]
      abel
    _ = ↑processed + (workers.map Worker.hand).sum + (↑done + w'.hand + ↑queue'.items) := by
      rw [sum]
      abel
    _ = _ := by
      rw [kept]
      abel

theorem Stopping.work (inv : Stopping pool s) (at_i : s.workers[i]? = some w)
    (facts : LoopFacts s.queue queue' w w' act done) :
    Stopping pool { s with
      queue := queue'
      workers := s.workers.set i w'
      processed := s.processed ++ done } where
  staffed := by simpa using inv.staffed
  tasks := by
    rw [← inv.tasks]
    simp only [StopState.tasks, facts.balance at_i]
  put := inv.put
  placed := by
    intro j v at_j
    rcases getElem?_set_cases at_j with ⟨rfl, rfl⟩ | ⟨-, before⟩
    · exact (inv.placed j w at_i).work facts
    · exact inv.placed j v before

theorem Stopping.to_stage (inv : Stopping pool s)
    (placed : ∀ (j : Nat) (w : Worker α), s.workers[j]? = some w → Placed s.stage j w →
      Placed stage j w) : Stopping pool { s with stage := stage } where
  staffed := inv.staffed
  tasks := inv.tasks
  put := inv.put
  placed := fun j w at_j => placed j w at_j (inv.placed j w at_j)

theorem Stopping.put_recovered {task : α} {rest : List α} (inv : Stopping pool s)
    (held : s.recovering = task :: rest) (put : s.queue.put task = some queue') :
    Stopping pool { s with queue := queue', recovering := rest } where
  staffed := inv.staffed
  tasks := by
    obtain ⟨-, items, -⟩ := BoundedQueue.put_eq put
    have moved : (↑queue'.items + ↑rest : Multiset α) = ↑s.queue.items + ↑s.recovering := by
      rw [items, held, Multiset.coe_add, Multiset.coe_add, List.append_assoc,
        List.singleton_append]
    rw [← inv.tasks]
    simp only [StopState.tasks, add_assoc, moved]
  put := by
    obtain ⟨before, all⟩ := inv.put
    exact ⟨before ++ [task], by rw [all, held, List.append_assoc, List.singleton_append]⟩
  placed := inv.placed

theorem Stopping.stop_worker (inv : Stopping pool s) (turn : s.stage = .stopping i)
    (at_i : s.workers[i]? = some w) :
    Stopping pool { s with
      workers := s.workers.set i { w with running := false }
      stage := .joining i } where
  staffed := by simpa using inv.staffed
  tasks := by
    have same_hand : ({ w with running := false } : Worker α).hand = w.hand := rfl
    have sum := sum_hands_set at_i { w with running := false }
    rw [same_hand] at sum
    rw [← inv.tasks]
    simp only [StopState.tasks, add_right_cancel sum]
  put := inv.put
  placed := by
    intro j v at_j
    rcases getElem?_set_cases at_j with ⟨rfl, rfl⟩ | ⟨-, before⟩
    · exact ⟨fun runs => (by cases runs), fun _ => Nat.le_refl j,
        fun past => absurd past (Nat.lt_irrefl j)⟩
    · have earlier := inv.placed j v before
      rw [turn] at earlier
      exact earlier.to_stage Nat.le_of_lt id

theorem Stopping.step (inv : Stopping pool s) (h : stopNext s a = some s') : Stopping pool s' := by
  cases stopNext_effect h with
  | putRecovered _ held put => exact inv.put_recovered held put
  | pollingLoopEnds turn =>
    refine inv.to_stage fun j w _ placed => ?_
    rw [turn] at placed
    exact placed.to_stage id id
  | recoveryLoopEnds turn =>
    refine inv.to_stage fun j w _ placed => ?_
    rw [turn] at placed
    exact placed.to_stage False.elim (fun past => absurd past (Nat.not_lt_zero j))
  | work at_i facts => exact inv.work at_i facts
  | told turn at_i => exact inv.stop_worker turn at_i
  | skipped turn at_i stopped =>
    have earlier := (inv.placed _ _ at_i).reached stopped
    rw [turn] at earlier
    exact absurd earlier (Nat.lt_irrefl _)
  | returned turn none_left =>
    refine inv.to_stage fun j w at_j placed => ?_
    rw [turn] at placed
    have inside := (List.getElem?_eq_some_iff.mp at_j).1
    have length := List.getElem?_eq_none_iff.mp none_left
    exact placed.to_stage (fun _ => trivial) (fun _ => Nat.lt_of_lt_of_le inside length)
  | @joined i v turn at_i gone =>
    refine inv.to_stage fun j w at_j placed => ?_
    rw [turn] at placed
    by_cases same : j = i
    · subst same
      rw [at_i] at at_j
      cases Option.some.inj at_j
      exact ⟨placed.running, fun _ => Nat.lt_succ_self j, fun _ => gone⟩
    · refine placed.to_stage Nat.lt_succ_of_le fun past => ?_
      exact Nat.lt_of_le_of_ne (Nat.le_of_lt_succ past) same

/-- There is nothing to do or somebody left to do it. -/
def StopState.Attended (s : StopState α) : Prop :=
  s.queue.items = [] ∨ ∃ (j : Nat) (w : Worker α), s.workers[j]? = some w ∧ w.loop ≠ none

theorem Stopping.attended (inv : Stopping pool s) (turn : s.stage = .pollingLoop) : s.Attended := by
  obtain ⟨w, others, workers⟩ := List.exists_cons_of_ne_nil inv.staffed
  have first : s.workers[0]? = some w := by rw [workers]; rfl
  have placed := inv.placed 0 w first
  refine Or.inr ⟨0, w, first, placed.running ?_⟩
  by_contra stopped
  have reached := placed.reached (by simpa using stopped)
  rw [turn] at reached
  exact reached

theorem attended_told (at_i : s.workers[i]? = some w) (stage : StopStage) :
    StopState.Attended { s with
      workers := s.workers.set i { w with running := false }
      stage := stage } ↔ s.Attended := by
  unfold StopState.Attended
  refine or_congr_right ⟨?_, ?_⟩
  · rintro ⟨j, v, at_j, alive⟩
    rcases getElem?_set_cases at_j with ⟨rfl, rfl⟩ | ⟨-, before⟩
    · exact ⟨j, w, at_i, alive⟩
    · exact ⟨j, v, before, alive⟩
  · rintro ⟨j, v, at_j, alive⟩
    by_cases same : i = j
    · subst same
      rw [at_i] at at_j
      cases Option.some.inj at_j
      have inside := (List.getElem?_eq_some_iff.mp at_i).1
      exact ⟨i, { w with running := false }, List.getElem?_set_self inside, alive⟩
    · exact ⟨j, v, by rw [List.getElem?_set_ne same]; exact at_j, alive⟩

theorem attended_work (at_i : s.workers[i]? = some w)
    (facts : LoopFacts s.queue queue' w w' act done) :
    StopState.Attended { s with
      queue := queue'
      workers := s.workers.set i w'
      processed := s.processed ++ done } ↔ ¬ LastLeaves s (.work i act) := by
  have inside := (List.getElem?_eq_some_iff.mp at_i).1
  have written : (s.workers.set i w')[i]? = some w' := List.getElem?_set_self inside
  by_cases gone : w'.loop = none
  · obtain ⟨rfl, stopped⟩ := facts.leaves.mp gone
    have same := facts.unchanged gone
    constructor
    · rintro attended ⟨-, work, alone⟩
      rcases attended with empty | ⟨j, v, at_j, alive⟩
      · exact work (same ▸ empty)
      · rcases getElem?_set_cases at_j with ⟨rfl, rfl⟩ | ⟨other, before⟩
        · exact alive gone
        · exact alive (alone j v other before)
    · intro others
      by_contra unattended
      simp only [StopState.Attended, not_or, not_exists, not_and, not_not] at unattended
      refine others ⟨⟨w, at_i, stopped⟩, same ▸ unattended.1, ?_⟩
      intro j v other before
      exact unattended.2 j v (by rw [List.getElem?_set_ne (Ne.symm other)]; exact before)
  · refine iff_of_true (Or.inr ⟨i, w', written, gone⟩) ?_
    intro leaves
    cases act with
    | check =>
      obtain ⟨⟨v, at_v, stopped⟩, -⟩ := leaves
      rw [at_i] at at_v
      cases Option.some.inj at_v
      exact gone (facts.leaves.mpr ⟨rfl, stopped⟩)
    | _ => exact leaves

theorem attended_step (inv : Stopping pool s) (h : stopNext s a = some s') :
    s'.Attended ↔ s.Attended ∧ ¬ LastLeaves s a := by
  cases stopNext_effect h with
  | putRecovered turn held put =>
    have before := inv.attended turn
    have after := (inv.put_recovered held put).attended turn
    exact iff_of_true after ⟨before, not_false⟩
  | told turn at_i => rw [attended_told at_i]; exact (and_iff_left not_false).symm
  | work at_i facts =>
    rw [attended_work at_i facts]
    exact (and_iff_right (Or.inr ⟨_, _, at_i, facts.alive⟩)).symm
  | _ => exact (and_iff_left not_false).symm

theorem Stopping.nobody_left (inv : Stopping pool s) (returned : s.stage = .returned) :
    ∀ (j : Nat) (w : Worker α), s.workers[j]? = some w → w.loop = none := by
  intro j w at_j
  apply (inv.placed j w at_j).past
  rw [returned]
  trivial

theorem sum_hands_of_gone {workers : List (Worker α)} (gone : ∀ w ∈ workers, w.loop = none) :
    (workers.map Worker.hand).sum = 0 := by
  apply List.sum_eq_zero
  intro hand mem
  obtain ⟨w, hw, rfl⟩ := List.mem_map.mp mem
  simp only [Worker.hand, gone w hw]

theorem Stopping.drained_iff (inv : Stopping pool s) (returned : s.stage = .returned) :
    s.Drained pool.queue ↔ s.Attended := by
  have nobody := inv.nobody_left returned
  constructor
  · exact fun drained => Or.inl drained.1
  · rintro (empty | ⟨j, w, at_j, alive⟩)
    · refine ⟨empty, Multiset.coe_le.mp ?_⟩
      obtain ⟨put, all⟩ := inv.put
      have hands : (s.workers.map Worker.hand).sum = 0 := by
        apply sum_hands_of_gone
        intro w hw
        obtain ⟨j, at_j⟩ := List.mem_iff_getElem?.mp hw
        exact nobody j w at_j
      have tasks := inv.tasks
      simp only [StopState.tasks, hands, empty, RunningPool.stop, all, ← Multiset.coe_add,
        Multiset.coe_nil, add_zero, zero_add, ← add_assoc] at tasks
      rw [add_right_cancel tasks]
      exact (Multiset.le_add_left _ _).trans (Multiset.le_add_right _ _)
    · exact absurd (nobody j w at_j) alive

theorem drained_of_idle {trace : List (StopState α × StopStep)}
    (run : Run stopNext pool.stop trace s) (empty : pool.queue.items = [])
    (idle : pool.recovering = []) : s.queue.items = [] := by
  have both : s.queue.items = [] ∧ s.recovering = [] := by
    refine run.invariant (P := fun s => s.queue.items = [] ∧ s.recovering = []) ⟨empty, idle⟩ ?_
    rintro t a u ⟨queue, recovering⟩ h
    cases stopNext_effect h with
    | putRecovered _ held _ => rw [recovering] at held; cases held
    | work _ facts => exact ⟨List.suffix_nil.mp (queue ▸ facts.items), recovering⟩
    | _ => exact ⟨queue, recovering⟩
  exact both.1

/-- The steps in which a worker that has been told to stop leaves its loop. -/
def LoopPoint.leave : LoopPoint α → List LoopStep
  | .check => [.check]
  | .receive => [.timeout, .check]
  | .process _ => [.finish, .check]

def stopOne (i : Nat) (point : LoopPoint α) : List StopStep :=
  [.stopWorker] ++ point.leave.map (StopStep.work i) ++ [.joined]

/-- The tasks in the hands of a worker at this point. -/
def LoopPoint.held : LoopPoint α → List α
  | .process task => [task]
  | _ => []

theorem work_next (at_i : s.workers[i]? = some w)
    (next : loopNext s.queue w act = some (queue, w', done)) :
    stopNext s (.work i act) = some { s with
      queue := queue
      workers := s.workers.set i w'
      processed := s.processed ++ done } := by
  simp only [stopNext, at_i, Option.bind_some, next, Option.map_some]

theorem leave_loop (at_i : s.workers[i]? = some ⟨false, some .check⟩) :
    exec stopNext s [.work i .check] =
      some { s with workers := s.workers.set i ⟨false, none⟩ } := by
  rw [exec_cons (work_next at_i rfl), List.append_nil]
  rfl

theorem leave_exec {point : LoopPoint α} (at_i : s.workers[i]? = some ⟨false, some point⟩) :
    exec stopNext s (point.leave.map (StopStep.work i)) = some { s with
      workers := s.workers.set i ⟨false, none⟩
      processed := s.processed ++ point.held } := by
  obtain ⟨inside, -⟩ := List.getElem?_eq_some_iff.mp at_i
  have at_check : (s.workers.set i ⟨false, some .check⟩)[i]? = some ⟨false, some .check⟩ :=
    List.getElem?_set_self inside
  cases point with
  | check =>
    have none_held : (LoopPoint.check : LoopPoint α).held = [] := rfl
    rw [none_held, List.append_nil]
    exact leave_loop at_i
  | receive =>
    have first : stopNext s (.work i .timeout) = some { s with
        workers := s.workers.set i ⟨false, some .check⟩
        processed := s.processed ++ [] } := work_next at_i rfl
    rw [LoopPoint.leave, List.map_cons, exec_cons first]
    refine (leave_loop at_check).trans ?_
    rw [List.set_set]
    rfl
  | process task =>
    have first : stopNext s (.work i .finish) = some { s with
        workers := s.workers.set i ⟨false, some .check⟩
        processed := s.processed ++ [task] } := work_next at_i rfl
    rw [LoopPoint.leave, List.map_cons, exec_cons first]
    refine (leave_loop at_check).trans ?_
    rw [List.set_set]
    rfl

theorem stopOne_exec {point : LoopPoint α} (turn : s.stage = .stopping i)
    (at_i : s.workers[i]? = some ⟨true, some point⟩) :
    exec stopNext s (stopOne i point) = some { s with
      workers := s.workers.set i ⟨false, none⟩
      stage := .stopping (i + 1)
      processed := s.processed ++ point.held } := by
  obtain ⟨inside, -⟩ := List.getElem?_eq_some_iff.mp at_i
  have told : stopNext s .stopWorker = some { s with
      workers := s.workers.set i ⟨false, some point⟩
      stage := .joining i } := by
    simp only [stopNext, turn, at_i, if_true]
  have at_told : (s.workers.set i ⟨false, some point⟩)[i]? = some ⟨false, some point⟩ :=
    List.getElem?_set_self inside
  have gone : (s.workers.set i (⟨false, none⟩ : Worker α))[i]? = some ⟨false, none⟩ :=
    List.getElem?_set_self inside
  have joined : stopNext { s with
      workers := s.workers.set i ⟨false, none⟩
      stage := .joining i
      processed := s.processed ++ point.held } .joined = some { s with
        workers := s.workers.set i ⟨false, none⟩
        stage := .stopping (i + 1)
        processed := s.processed ++ point.held } := by
    simp only [stopNext, gone]
  have left : exec stopNext { s with
      workers := s.workers.set i ⟨false, some point⟩
      stage := .joining i } (point.leave.map (StopStep.work i)) = some { s with
        workers := s.workers.set i ⟨false, none⟩
        stage := .joining i
        processed := s.processed ++ point.held } := by
    refine (leave_exec at_told).trans ?_
    rw [List.set_set]
  rw [stopOne, List.append_assoc, List.singleton_append, exec_cons told, exec_append left,
    exec_cons joined]
  rfl

/-- Each worker finishes what it has in hand and leaves when it is told to. -/
theorem returns_from (count : Nat) : ∀ s : StopState α, s.stage = .stopping i →
    i + count = s.workers.length →
    (∀ (j : Nat) w, i ≤ j → s.workers[j]? = some w → ∃ point, w = ⟨true, some point⟩) →
    ∃ trace s', Run stopNext s trace s' ∧ s'.stage = .returned ∧ s'.queue = s.queue := by
  induction count generalizing i with
  | zero =>
    intro s turn all _
    have none_left : s.workers[i]? = none := List.getElem?_eq_none_iff.mpr (by omega)
    have next : stopNext s .stopWorker = some { s with stage := .returned } := by
      simp only [stopNext, turn, none_left]
    exact ⟨_, _, Run.step Run.start next, rfl, rfl⟩
  | succ count ih =>
    intro s turn all waiting
    have inside : i < s.workers.length := by omega
    have at_i : s.workers[i]? = some s.workers[i] := List.getElem?_eq_getElem inside
    obtain ⟨point, this⟩ := waiting i _ (Nat.le_refl i) at_i
    rw [this] at at_i
    obtain ⟨t, moved, next, kept, workers⟩ : ∃ t, exec stopNext s (stopOne i point) = some t ∧
        t.stage = .stopping (i + 1) ∧ t.queue = s.queue ∧
        t.workers = s.workers.set i ⟨false, none⟩ :=
      ⟨_, stopOne_exec turn at_i, rfl, rfl, rfl⟩
    have length : i + 1 + count = t.workers.length := by
      rw [workers, List.length_set]
      omega
    obtain ⟨trace, s', rest, returned, same⟩ := ih t next length (by
      intro j w later at_j
      rw [workers, List.getElem?_set_ne (by omega)] at at_j
      exact waiting j w (by omega) at_j)
    exact ⟨_, s', (exec_run moved).trans rest, returned, same.trans kept⟩

/-- Whatever is on the queue may all be left there. -/
theorem stop_may_leave (s : StopState α) (turn : s.stage = .pollingLoop)
    (waiting : ∀ w ∈ s.workers, ∃ point, w = ⟨true, some point⟩) :
    ∃ trace s', Run stopNext s trace s' ∧ s'.stage = .returned ∧ s'.queue = s.queue := by
  have first : stopNext s .pollingLoopEnds = some { s with stage := .recoveryLoop } := by
    simp only [stopNext, turn]
  have second : stopNext { s with stage := .recoveryLoop } .recoveryLoopEnds =
      some { s with stage := .stopping 0 } := rfl
  obtain ⟨trace, s', rest, returned, same⟩ := returns_from s.workers.length
    { s with stage := .stopping 0 } rfl (Nat.zero_add _)
    (fun j w _ at_j => waiting w (List.mem_of_getElem? at_j))
  exact ⟨_, s', (Run.step (Run.step Run.start first) second).trans rest, returned, same⟩

theorem RunningPool.waiting (pool : RunningPool α) :
    ∀ w ∈ pool.stop.workers, ∃ point, w = ⟨true, some point⟩ := by
  intro w mem
  obtain ⟨point, -, rfl⟩ := List.mem_map.mp mem
  exact ⟨point, rfl⟩

theorem work_left (pool : RunningPool α)
    (busy : ¬ (pool.queue.items = [] ∧ pool.recovering = [])) :
    ∃ trace s, Run stopNext pool.stop trace s ∧ s.stage = .returned ∧ s.queue.items ≠ [] := by
  by_cases empty : pool.queue.items = []
  · obtain ⟨task, rest, held⟩ := List.exists_cons_of_ne_nil (fun idle => busy ⟨empty, idle⟩)
    have room : 0 < pool.queue.availableCapacity := by
      unfold BoundedQueue.availableCapacity BoundedQueue.size
      rw [empty]
      exact pool.queue.capacity_pos
    obtain ⟨queue', put, items⟩ := BoundedQueue.put_of_room room task
    have next : stopNext pool.stop .putRecovered =
        some { pool.stop with queue := queue', recovering := rest } := by
      simp only [stopNext, RunningPool.stop, held, put, Option.map_some]
    obtain ⟨trace, s, run, returned, same⟩ := stop_may_leave
      { pool.stop with queue := queue', recovering := rest } rfl pool.waiting
    refine ⟨_, s, (Run.step Run.start next).trans run, returned, ?_⟩
    rw [same, items]
    simp
  · obtain ⟨trace, s, run, returned, same⟩ := stop_may_leave pool.stop rfl pool.waiting
    refine ⟨trace, s, run, returned, ?_⟩
    rw [same]
    exact empty

/-- A stop that runs to its end drains the queue exactly if the last worker in its
loop never leaves it with work on the queue, and every stop of a pool drains it
exactly if there is nothing to drain. -/
theorem graceful_stop_drains_iff (pool : RunningPool α) :
    (∀ trace s, Run stopNext pool.stop trace s → s.stage = .returned →
      (s.Drained pool.queue ↔ ∀ p ∈ trace, ¬ LastLeaves p.1 p.2)) ∧
    ((∀ trace s, Run stopNext pool.stop trace s → s.stage = .returned → s.Drained pool.queue) ↔
      pool.queue.items = [] ∧ pool.recovering = []) := by
  constructor
  · intro trace s run returned
    have inv := run.invariant (Stopping.start pool) Stopping.step
    rw [inv.drained_iff returned]
    exact run.ends_iff (fun s a => ¬ LastLeaves s a) (Stopping.start pool)
      ((Stopping.start pool).attended rfl) Stopping.step attended_step
  · constructor
    · intro drains
      by_contra busy
      obtain ⟨trace, s, run, returned, left⟩ := work_left pool busy
      exact left (drains trace s run returned).1
    · rintro ⟨empty, idle⟩ trace s run returned
      have inv := run.invariant (Stopping.start pool) Stopping.step
      exact (inv.drained_iff returned).mpr (Or.inl (drained_of_idle run empty idle))

/-- Two workers with a task in hand each and a third task on the queue. -/
def busyPool : RunningPool Nat where
  queue := ⟨[3], 100, ⟨100, 1, 1, 3, 2⟩, by decide, by decide⟩
  recovering := []
  loops := [.process 1, .process 2]
  staffed := by simp

theorem stop_leaves_task : ∃ trace s, Run stopNext busyPool.stop trace s ∧ s.stage = .returned ∧
    s.processed = [1, 2] ∧ s.queue.items = [3] ∧ ¬ s.Drained busyPool.queue := by
  have moved : exec stopNext busyPool.stop [.pollingLoopEnds, .recoveryLoopEnds, .stopWorker,
      .work 0 .finish, .work 0 .check, .joined, .stopWorker, .work 1 .finish, .work 1 .check,
      .joined, .stopWorker] = some
        ⟨busyPool.queue, [], [⟨false, none⟩, ⟨false, none⟩], .returned, [1, 2]⟩ := rfl
  refine ⟨_, _, exec_run moved, rfl, rfl, rfl, ?_⟩
  rintro ⟨empty, -⟩
  cases empty

end DomainProcessing
