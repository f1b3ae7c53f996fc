import DomainProcessing.Shutdown

namespace DomainProcessing

open Runs

variable {α : Type*} {parts : Components} {workerConcurrency : Nat} {s s' t : Application α}
  {a : ApplicationStep α} {i : Nat} {w w' : Worker α}

namespace Application

/-- The tasks in the workers' hands. -/
def hands (s : Application α) : Multiset α := (s.workers.map Worker.hand).sum

/-- What has been taken into the queue and is not yet done. -/
def outstanding (s : Application α) : Multiset α := s.hands + ↑s.cycles.queue.items

/-- The `log_event` between `queue.get` and the `try` around the handler is taken not to raise. -/
structure Accounted (s : Application α) : Prop where
  tasks : (↑s.dispatched : Multiset α) = ↑s.processed + ↑s.abandoned + s.outstanding
  unfinished : s.unfinishedTasks = s.outstanding.card
  errors : s.valueErrors = 0
  once : s.abandoned.length ≤ 1
  spared : s.timedOut = none → s.abandoned = []
  alive : ∀ (i : Nat) (w : Worker α), s.timedOut = some i → s.workers[i]? = some w →
    w.loop ≠ none → s.abandoned = []

theorem puts_items {step : CycleStep α} {loop : ManagerLoop} {cycles cycles' : ManagerCycles α}
    (taken : step.loop = some loop) (h : cyclesNext workerConcurrency cycles step = some cycles') :
    cycles'.queue.items = cycles.queue.items ++ step.puts cycles := by
  cases cyclesNext_effect h with
  | read => simp [CycleStep.puts]
  | full => simp [CycleStep.puts]
  | commit => simp [CycleStep.puts]
  | put dispatching put =>
    obtain ⟨-, items, -⟩ := BoundedQueue.put_eq put
    simp [CycleStep.puts, dispatching, items]
  | get => cases taken
  | ends => simp [CycleStep.puts]

theorem outstanding_set (at_i : s.workers[i]? = some w) (same : t.cycles.queue = s.cycles.queue)
    (workers : t.workers = s.workers.set i w') :
    t.outstanding + w.hand = s.outstanding + w'.hand := by
  have sum := sum_hands_set at_i w'
  unfold outstanding hands
  rw [workers, same, add_right_comm, sum, add_right_comm]

theorem outstanding_work {queue' : BoundedQueue α} {act : LoopStep}
    (at_i : s.workers[i]? = some w) (facts : LoopFacts s.cycles.queue queue' w w' act []) :
    ({ s with
      cycles := { s.cycles with queue := queue' }
      workers := s.workers.set i w' } : Application α).outstanding = s.outstanding := by
  have balance := facts.balance at_i []
  simpa [outstanding, hands] using balance

theorem Accounted.transfer (inv : s.Accounted) (dispatched : t.dispatched = s.dispatched)
    (processed : t.processed = s.processed) (abandoned : t.abandoned = s.abandoned)
    (outstanding : t.outstanding = s.outstanding) (unfinished : t.unfinishedTasks = s.unfinishedTasks)
    (errors : t.valueErrors = s.valueErrors) (timed_out : t.timedOut = s.timedOut)
    (alive : ∀ (i : Nat) (w : Worker α), t.timedOut = some i → t.workers[i]? = some w →
      w.loop ≠ none → s.abandoned = []) : t.Accounted where
  tasks := by rw [dispatched, processed, abandoned, outstanding]; exact inv.tasks
  unfinished := by rw [unfinished, outstanding]; exact inv.unfinished
  errors := errors.trans inv.errors
  once := by rw [abandoned]; exact inv.once
  spared := by rw [timed_out, abandoned]; exact inv.spared
  alive := by
    intro i w expired at_i lives
    rw [abandoned]
    exact alive i w expired at_i lives

theorem taskDone_outstanding (s : Application α) : s.taskDone.outstanding = s.outstanding := by
  unfold taskDone
  split <;> rfl

theorem taskDone_lists (s : Application α) : s.taskDone.dispatched = s.dispatched ∧
    s.taskDone.processed = s.processed ∧ s.taskDone.abandoned = s.abandoned := by
  unfold taskDone
  split <;> exact ⟨rfl, rfl, rfl⟩

/-- `task_done` never runs out of unfinished tasks. -/
theorem taskDone_unfinished {n : Nat} (more : s.unfinishedTasks = n + 1) :
    s.taskDone.unfinishedTasks = n ∧ s.taskDone.valueErrors = s.valueErrors := by
  unfold taskDone
  rw [more]
  exact ⟨rfl, rfl⟩

/-- A task in hand goes to one of the two ends. -/
theorem Accounted.done (inv : s.Accounted) (task : α)
    (unfinished : t.unfinishedTasks = s.unfinishedTasks) (errors : t.valueErrors = s.valueErrors)
    (dispatched : t.dispatched = s.dispatched)
    (ends : (↑t.processed + ↑t.abandoned : Multiset α) = ↑s.processed + ↑s.abandoned + {task})
    (taken : s.outstanding = t.outstanding + {task}) (once : t.abandoned.length ≤ 1)
    (spared : t.timedOut = none → t.abandoned = [])
    (alive : ∀ (i : Nat) (w : Worker α), t.timedOut = some i → t.workers[i]? = some w →
      w.loop ≠ none → t.abandoned = []) : t.taskDone.Accounted := by
  obtain ⟨dispatched', processed', abandoned'⟩ := taskDone_lists t
  have count : t.unfinishedTasks = t.outstanding.card + 1 := by
    rw [unfinished, inv.unfinished, taken, Multiset.card_add, Multiset.card_singleton]
  obtain ⟨left, quiet⟩ := taskDone_unfinished count
  refine ⟨?_, ?_, ?_, ?_, ?_, ?_⟩
  · rw [dispatched', processed', abandoned', taskDone_outstanding, dispatched, inv.tasks, ends, taken]
    abel
  · rw [left, taskDone_outstanding]
  · rw [quiet, errors, inv.errors]
  · rw [abandoned']; exact once
  · rw [abandoned', taskDone_timedOut]; exact spared
  · rw [abandoned', taskDone_timedOut, taskDone_workers]; exact alive

theorem Accounted.finished {queue : BoundedQueue α} {task : α} (inv : s.Accounted)
    (at_i : s.workers[i]? = some w) (facts : LoopFacts queue queue w w' .finish [task]) :
    ({ s with
      workers := s.workers.set i w'
      processed := s.processed ++ [task] } : Application α).taskDone.Accounted := by
  have hand : w.hand = w'.hand + {task} := by
    have kept := add_right_cancel facts.tasks
    rw [← kept, add_comm, Multiset.coe_singleton]
  have moved := outstanding_set (t := { s with
    workers := s.workers.set i w'
    processed := s.processed ++ [task] }) at_i rfl rfl
  refine inv.done task rfl rfl rfl ?_ ?_ inv.once inv.spared ?_
  · rw [← Multiset.coe_add, Multiset.coe_singleton]
    exact add_right_comm _ _ _
  · rw [hand, ← add_assoc, add_right_comm] at moved
    exact (add_right_cancel moved).symm
  · intro j v expired at_j lives
    rcases getElem?_set_cases at_j with ⟨rfl, -⟩ | ⟨-, before⟩
    · exact inv.alive j w expired at_i facts.alive
    · exact inv.alive j v expired before lives

theorem Accounted.cancelled {task : α} (inv : s.Accounted) (expired : s.timedOut = some i)
    (at_i : s.workers[i]? = some w) (point : w.loop = some (.process task)) :
    ({ s with
      workers := s.workers.set i { w with loop := none }
      abandoned := s.abandoned ++ [task] } : Application α).taskDone.Accounted := by
  have hand : w.hand = {task} := by simp only [Worker.hand, point]
  have dropped : ({ w with loop := none } : Worker α).hand = 0 := rfl
  have nothing : s.abandoned = [] := inv.alive i w expired at_i (by simp [point])
  have moved := outstanding_set (t := { s with
    workers := s.workers.set i { w with loop := none }
    abandoned := s.abandoned ++ [task] }) at_i rfl rfl
  refine inv.done task rfl rfl rfl ?_ ?_ ?_ ?_ ?_
  · change (↑s.processed + ↑(s.abandoned ++ [task]) : Multiset α) = _
    rw [← Multiset.coe_add, Multiset.coe_singleton, add_assoc]
  · rw [hand, dropped, add_zero] at moved
    exact moved.symm
  · simp [nothing]
  · intro none_expired
    cases expired.symm.trans none_expired
  · intro j v expired' at_j lives
    have same : i = j := Option.some.inj (expired.symm.trans expired')
    rcases getElem?_set_cases at_j with ⟨-, rfl⟩ | ⟨other, -⟩
    · exact absurd rfl lives
    · exact absurd same.symm other

/-- A worker is told to stop, or is cancelled while it waits. -/
theorem Accounted.set_worker (inv : s.Accounted) (at_i : s.workers[i]? = some w)
    (stage : ShutdownStage) (same_hand : w'.hand = w.hand) (lives : w'.loop ≠ none → w.loop ≠ none) :
    ({ s with
      workers := s.workers.set i w'
      stage := stage } : Application α).Accounted := by
  have moved := outstanding_set (t := { s with
    workers := s.workers.set i w'
    stage := stage }) at_i rfl rfl
  rw [same_hand] at moved
  refine inv.transfer rfl rfl rfl (add_right_cancel moved) rfl rfl rfl ?_
  intro j v expired at_j alive
  rcases getElem?_set_cases at_j with ⟨rfl, rfl⟩ | ⟨-, before⟩
  · exact inv.alive j w expired at_i (lives alive)
  · exact inv.alive j v expired before alive

theorem Accounted.cycle {step : CycleStep α} {loop : ManagerLoop} {cycles : ManagerCycles α}
    (inv : s.Accounted) (taken : step.loop = some loop)
    (h : cyclesNext workerConcurrency s.cycles step = some cycles) : ({ s with
      cycles := cycles
      unfinishedTasks := s.unfinishedTasks + (step.puts s.cycles).length
      dispatched := s.dispatched ++ step.puts s.cycles } : Application α).Accounted := by
  have items := puts_items taken h
  have more : ({ s with
      cycles := cycles
      unfinishedTasks := s.unfinishedTasks + (step.puts s.cycles).length
      dispatched := s.dispatched ++ step.puts s.cycles } : Application α).outstanding =
        s.outstanding + ↑(step.puts s.cycles) := by
    change s.hands + ↑cycles.queue.items = s.hands + ↑s.cycles.queue.items + _
    rw [items, ← Multiset.coe_add, add_assoc]
  refine ⟨?_, ?_, inv.errors, inv.once, inv.spared, inv.alive⟩
  · rw [more]
    change (↑(s.dispatched ++ _) : Multiset α) = _
    rw [← Multiset.coe_add, inv.tasks, add_assoc]
  · rw [more, Multiset.card_add, Multiset.coe_card]
    exact congrArg (· + _) inv.unfinished

theorem Accounted.step (inv : s.Accounted)
    (h : applicationNext parts workerConcurrency s a = some s') : s'.Accounted := by
  cases applicationNext_effect h with
  | cycle taken _ _ next => exact inv.cycle taken next
  | work at_i facts =>
    refine inv.transfer rfl rfl rfl (outstanding_work at_i facts) rfl rfl rfl ?_
    intro j v expired at_j lives
    rcases getElem?_set_cases at_j with ⟨rfl, -⟩ | ⟨-, before⟩
    · exact inv.alive j _ expired at_i facts.alive
    · exact inv.alive j v expired before lives
  | finished at_i facts => exact inv.finished at_i facts
  | pollingLoopEnds | recoveryLoopEnds =>
    refine inv.transfer rfl rfl rfl ?_ rfl rfl rfl inv.alive
    simp [outstanding, hands, dropCycle, proceed]
  | told _ at_i => exact inv.set_worker at_i _ rfl id
  | graceExpires _ in_time =>
    have nothing := inv.spared in_time
    exact ⟨inv.tasks, inv.unfinished, inv.errors, inv.once, fun h => (by cases h), fun _ _ _ _ _ => nothing⟩
  | cancelledWaiting _ at_i point =>
    exact inv.set_worker at_i s.stage (by simp only [Worker.hand, point]) (absurd rfl)
  | cancelledWorking expired at_i point => exact inv.cancelled expired at_i point
  | _ => exact inv.transfer rfl rfl rfl rfl rfl rfl rfl inv.alive

theorem startup_idle (parts : Components) (workerConcurrency : Nat) (queue : BoundedQueue α) :
    (startup parts workerConcurrency queue).hands = 0 := by
  apply List.sum_eq_zero
  intro hand mem
  obtain ⟨w, held, rfl⟩ := List.mem_map.mp mem
  unfold startup at held
  split at held
  next => rw [List.eq_of_mem_replicate held]; rfl
  next => cases held

theorem Accounted.start {queue : BoundedQueue α} (empty : queue.items = []) :
    (startup parts workerConcurrency queue).Accounted := by
  have nothing : (startup parts workerConcurrency queue).outstanding = 0 := by
    unfold outstanding
    rw [startup_idle]
    change (0 : Multiset α) + ↑queue.items = 0
    rw [empty]
    rfl
  refine ⟨?_, ?_, rfl, Nat.zero_le 1, fun _ => rfl, fun _ _ _ _ _ => rfl⟩
  · rw [nothing]; rfl
  · rw [nothing]; rfl

/-- What the states after `s` have in common with it once the manager's loops are gone. -/
structure Drains (s t : Application α) : Prop where
  polling : t.pollingLoop = false
  recovery : t.recoveryLoop = false
  dispatched : t.dispatched = s.dispatched
  items : t.cycles.queue.items <:+ s.cycles.queue.items
  processed : s.processed <+: t.processed

theorem Drains.task_done (drains : Drains s t) : Drains s t.taskDone := by
  unfold taskDone
  split
  · exact ⟨drains.polling, drains.recovery, drains.dispatched, drains.items, drains.processed⟩
  · exact ⟨drains.polling, drains.recovery, drains.dispatched, drains.items, drains.processed⟩

theorem Drains.step {u : Application α} (drains : Drains s t)
    (h : applicationNext parts workerConcurrency t a = some u) : Drains s u := by
  obtain ⟨polling, recovery, dispatched, items, processed⟩ := drains
  cases applicationNext_effect h with
  | cycle _ _ moving =>
    rw [moves_of_gone polling recovery] at moving
    cases moving
  | work _ facts => exact ⟨polling, recovery, dispatched, facts.items.trans items, processed⟩
  | finished =>
    exact Drains.task_done
      ⟨polling, recovery, dispatched, items, processed.trans (List.prefix_append _ _)⟩
  | cancelledWorking =>
    exact Drains.task_done ⟨polling, recovery, dispatched, items, processed⟩
  | pollingLoopEnds => exact ⟨rfl, recovery, dispatched, by simpa [dropCycle] using items, processed⟩
  | recoveryLoopEnds =>
    exact ⟨polling, rfl, dispatched, by simpa [dropCycle, proceed] using items, processed⟩
  | _ => exact ⟨polling, recovery, dispatched, items, processed⟩

theorem Drains.run {trace : List (Application α × ApplicationStep α)}
    (run : Run (applicationNext parts workerConcurrency) s trace t) (polling : s.pollingLoop = false)
    (recovery : s.recoveryLoop = false) : Drains s t :=
  run.invariant (P := Drains s) ⟨polling, recovery, rfl, List.suffix_rfl, List.prefix_rfl⟩
    fun drains h => drains.step h

/-- What is in the workers' hands ends among the processed or the abandoned tasks. -/
theorem Drains.hands (drains : Drains s t) (before : s.Accounted) (after : t.Accounted)
    (idle : t.hands = 0) : ∃ finished : List α, t.processed = s.processed ++ finished ∧
      s.hands ≤ ↑finished + ↑t.abandoned := by
  obtain ⟨finished, processed⟩ := drains.processed
  obtain ⟨taken, items⟩ := drains.items
  refine ⟨finished, processed.symm, ?_⟩
  have tasks := after.tasks
  rw [drains.dispatched, before.tasks, ← processed] at tasks
  simp only [outstanding, idle, ← items, ← Multiset.coe_add] at tasks
  have balance : s.hands + (↑s.abandoned + ↑taken) = ↑finished + ↑t.abandoned := by
    apply add_right_cancel (b := (↑s.processed + ↑t.cycles.queue.items : Multiset α))
    calc
      _ = ↑s.processed + ↑s.abandoned + (s.hands + (↑taken + ↑t.cycles.queue.items)) := by abel
      _ = _ := tasks
      _ = _ := by abel
  rw [← balance]
  exact Multiset.le_add_right _ _

end Application

variable {queue : BoundedQueue α} {trace later : List (Application α × ApplicationStep α)}

theorem accounted_run (empty : queue.items = []) (run : Run (applicationNext parts workerConcurrency)
    (.startup parts workerConcurrency queue) trace s) : s.Accounted :=
  run.invariant (P := Application.Accounted) (Application.Accounted.start empty)
    fun inv h => inv.step h

/-- At every moment from the start of the process to its end each task that was put
is processed, abandoned, in a worker's hand or on the queue. -/
theorem every_task_accounted (empty : queue.items = [])
    (run : Run (applicationNext parts workerConcurrency)
      (.startup parts workerConcurrency queue) trace s) :
    (↑s.dispatched : Multiset α) =
        ↑s.processed + ↑s.abandoned + s.hands + ↑s.cycles.queue.items ∧
      s.unfinishedTasks = s.hands.card + s.cycles.queue.items.length ∧ s.valueErrors = 0 ∧
      (s.timedOut = none → s.abandoned = []) := by
  have inv := accounted_run empty run
  refine ⟨?_, ?_, inv.errors, inv.spared⟩
  · rw [inv.tasks, Application.outstanding, ← add_assoc]
  · rw [inv.unfinished, Application.outstanding, Multiset.card_add, Multiset.coe_card]

/-- A pool of two workers and a queue for two tasks. -/
def twoWorkers : Application Nat :=
  .startup (createApp true true) 2 ⟨[], 2, ⟨2, 0, 0, 0, 0⟩, by decide, Nat.zero_le 2⟩

/-- Both workers take a task, and the stop has come as far as the manager's loops. -/
def bothBusy : List (ApplicationStep Nat) :=
  [.cycle (.readCapacity .polling), .cycle (.commit .polling [7, 8]), .cycle (.put .polling),
    .cycle (.put .polling), .work 0 .check, .work 0 .receive, .work 1 .check, .work 1 .receive,
    .signal 15, .shutdown, .pollingLoopEnds, .recoveryLoopEnds]

/-- The grace period ends while the pool waits for the first worker. -/
def firstCancelled : List (ApplicationStep Nat) :=
  [.schedulerEnds, .stopWorker, .graceExpires, .cancelled, .joined, .stopWorker, .createJob,
    .work 1 .finish, .work 1 .check, .joined, .stopWorker, .databaseCloses]

theorem every_task_accounted_busy :
    ∃ s, exec (applicationNext (createApp true true) 2) twoWorkers bothBusy = some s ∧
      (↑s.dispatched : Multiset Nat) =
        ↑s.processed + ↑s.abandoned + s.hands + ↑s.cycles.queue.items ∧ s.unfinishedTasks = 2 := by
  obtain ⟨s, hs⟩ := Option.isSome_iff_exists.mp
    (rfl : (exec (applicationNext (createApp true true) 2) twoWorkers bothBusy).isSome = true)
  obtain ⟨tasks, unfinished, -⟩ := every_task_accounted rfl (exec_run hs)
  cases Option.some.inj hs
  exact ⟨_, rfl, tasks, rfl⟩

/-- However many tasks are in hand when the manager is gone, and whenever the grace
period ends: all but one of them are processed before the database is closed. -/
theorem grace_abandons_one (empty : queue.items = [])
    (run : Run (applicationNext parts workerConcurrency)
      (.startup parts workerConcurrency queue) trace t) (gone : 3 ≤ t.stage.rank)
    (stop : Run (applicationNext parts workerConcurrency) t later s) (closing : 5 ≤ s.stage.rank) :
    s.hands = 0 ∧ s.abandoned.length ≤ 1 ∧ ∃ finished : List α,
      s.processed = t.processed ++ finished ∧ t.hands ≤ ↑finished + ↑s.abandoned := by
  have whole := run.trans stop
  have before := accounted_run empty run
  have after := accounted_run empty whole
  have ordered := (Application.Ordered.run run).1
  have quiet := (Application.Ordered.run whole).1.quiet closing
  have idle : s.hands = 0 := sum_hands_of_gone quiet.workers
  have drains := Application.Drains.run stop (ordered.ended.polling (by omega))
    (ordered.ended.recovery gone)
  exact ⟨idle, after.once, drains.hands before after idle⟩

theorem grace_abandons_one_of_two : ∃ t s,
    exec (applicationNext (createApp true true) 2) twoWorkers bothBusy = some t ∧
      exec (applicationNext (createApp true true) 2) t firstCancelled = some s ∧
      s.abandoned = [7] ∧ s.processed = [8] ∧ s.hands = 0 ∧ s.abandoned.length ≤ 1 := by
  obtain ⟨t, ht⟩ := Option.isSome_iff_exists.mp
    (rfl : (exec (applicationNext (createApp true true) 2) twoWorkers bothBusy).isSome = true)
  obtain ⟨s, hs⟩ : ∃ s, exec (applicationNext (createApp true true) 2) t firstCancelled = some s := by
    cases Option.some.inj ht
    exact ⟨_, rfl⟩
  have late : 3 ≤ t.stage.rank := by
    cases Option.some.inj ht
    exact Nat.le_refl 3
  have closing : 5 ≤ s.stage.rank := by
    cases Option.some.inj ht
    cases Option.some.inj hs
    exact Nat.le_succ 5
  obtain ⟨idle, once, -⟩ := grace_abandons_one rfl (exec_run ht) late (exec_run hs) closing
  refine ⟨t, s, ht, hs, ?_, ?_, idle, once⟩
  · cases Option.some.inj ht
    cases Option.some.inj hs
    rfl
  · cases Option.some.inj ht
    cases Option.some.inj hs
    rfl

end DomainProcessing
