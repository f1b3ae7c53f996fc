import DomainProcessing.GracefulStop
import DomainProcessing.QueueReservation

namespace DomainProcessing

open Runs

/-- `ShutdownState` -/
structure ShutdownState where
  initiated : Bool
  signal : Option Nat
  apiClosed : Bool
  taskManagerStopped : Bool
  schedulerStopped : Bool
  workerPoolDraining : Bool
  workerPoolStopped : Bool
  databaseClosed : Bool
  completed : Bool

/-- What the coordinator has been given, and whether `shutdown` gets a database. -/
structure Components where
  taskManager : Bool
  scheduler : Bool
  workerPool : Bool
  database : Bool

/-- What `create_app` hands to the coordinator and `lifespan` to its `shutdown`. -/
def createApp (enableWorkerPool enableScheduler : Bool) : Components where
  taskManager := enableWorkerPool
  scheduler := enableWorkerPool && enableScheduler
  workerPool := enableWorkerPool
  database := true

/-- What `shutdown` awaits. -/
inductive ShutdownStage
  | serving
  | pollingLoop
  | recoveryLoop
  | scheduler
  | stopping (worker : Nat)
  | joining (worker : Nat)
  | closing
  | returned
  deriving DecidableEq

namespace ShutdownState

def initial : ShutdownState := ⟨false, none, false, false, false, false, false, false, false⟩

/-- `_on_signal` -/
def onSignal (state : ShutdownState) (sig : Nat) : ShutdownState :=
  if state.initiated then state else { state with initiated := true, signal := some sig }

def complete (state : ShutdownState) : ShutdownState × ShutdownStage :=
  ({ state with completed := true }, .returned)

def closeDatabase (parts : Components) (state : ShutdownState) : ShutdownState × ShutdownStage :=
  if parts.database then (state, .closing) else state.complete

def drainWorkerPool (parts : Components) (state : ShutdownState) : ShutdownState × ShutdownStage :=
  if parts.workerPool then ({ state with workerPoolDraining := true }, .stopping 0)
  else state.closeDatabase parts

def stopScheduler (parts : Components) (state : ShutdownState) : ShutdownState × ShutdownStage :=
  if parts.scheduler then (state, .scheduler) else state.drainWorkerPool parts

def stopTaskManager (parts : Components) (state : ShutdownState) : ShutdownState × ShutdownStage :=
  if parts.taskManager then (state, .pollingLoop) else state.stopScheduler parts

/-- `shutdown` up to where it first awaits something. -/
def shutdown (parts : Components) (state : ShutdownState) : ShutdownState × ShutdownStage :=
  { state with initiated := true, apiClosed := true }.stopTaskManager parts

def taskManagerReturns (parts : Components) (state : ShutdownState) :
    ShutdownState × ShutdownStage :=
  { state with taskManagerStopped := true }.stopScheduler parts

def schedulerReturns (parts : Components) (state : ShutdownState) : ShutdownState × ShutdownStage :=
  { state with schedulerStopped := true }.drainWorkerPool parts

def workerPoolReturns (parts : Components) (state : ShutdownState) :
    ShutdownState × ShutdownStage :=
  { state with workerPoolStopped := true }.closeDatabase parts

def databaseReturns (state : ShutdownState) : ShutdownState × ShutdownStage :=
  { state with databaseClosed := true }.complete

end ShutdownState

/-- The process. The loops of the manager and the scheduler are true while their
asyncio tasks are alive, `unfinishedTasks` and `valueErrors` belong to the
`asyncio.Queue`, and `timedOut` is the worker that the end of the grace period has
found the pool waiting for. -/
structure Application (α : Type*) where
  shutdown : ShutdownState
  stage : ShutdownStage
  cycles : ManagerCycles α
  pollingLoop : Bool
  recoveryLoop : Bool
  schedulerLoop : Bool
  workers : List (Worker α)
  unfinishedTasks : Nat
  valueErrors : Nat
  timedOut : Option Nat
  dispatched : List α
  processed : List α
  abandoned : List α
  admitted : Nat
  refused : Nat

inductive ApplicationStep (α : Type*)
  | createJob
  | signal (sig : Nat)
  | cycle (step : CycleStep α)
  | work (worker : Nat) (step : LoopStep)
  | shutdown
  | pollingLoopEnds
  | recoveryLoopEnds
  | schedulerEnds
  | stopWorker
  | joined
  | graceExpires
  | cancelled
  | databaseCloses

variable {α : Type*}

/-- The loop of the manager that takes the step; the workers' gets are none of its steps. -/
def CycleStep.loop : CycleStep α → Option ManagerLoop
  | .readCapacity loop | .commit loop _ | .put loop | .ends loop => some loop
  | .get => none

/-- What the step puts on the queue. -/
def CycleStep.puts (cycles : ManagerCycles α) : CycleStep α → List α
  | .put loop =>
    match cycles.cycle loop with
    | .dispatching (task :: _) => [task]
    | _ => []
  | _ => []

namespace Application

/-- Whether the loop may take the step: `_running` is false as soon as the stop has
begun, and a loop that has been cancelled only ends. -/
def moves (s : Application α) (step : CycleStep α) : ManagerLoop → Bool
  | .polling => s.pollingLoop && s.stage == .serving
  | .recovery =>
    match step with
    | .readCapacity _ => s.recoveryLoop && s.stage == .serving
    | _ => s.recoveryLoop && (s.stage == .serving || s.stage == .pollingLoop)

/-- `queue.task_done()` -/
def taskDone (s : Application α) : Application α :=
  match s.unfinishedTasks with
  | 0 => { s with valueErrors := s.valueErrors + 1 }
  | n + 1 => { s with unfinishedTasks := n }

def proceed (s : Application α) (next : ShutdownState × ShutdownStage) : Application α :=
  { s with shutdown := next.1, stage := next.2 }

/-- The loop is gone, and with it what it had still to put. -/
def dropCycle (s : Application α) (loop : ManagerLoop) : Application α :=
  { s with cycles := s.cycles.setCycle loop .idle }

/-- What `lifespan` has started. -/
def startup (parts : Components) (workerConcurrency : Nat) (queue : BoundedQueue α) :
    Application α where
  shutdown := .initial
  stage := .serving
  cycles := .start queue
  pollingLoop := parts.taskManager
  recoveryLoop := parts.taskManager
  schedulerLoop := parts.scheduler
  workers := if parts.workerPool then List.replicate workerConcurrency ⟨true, some .check⟩ else []
  unfinishedTasks := 0
  valueErrors := 0
  timedOut := none
  dispatched := []
  processed := []
  abandoned := []
  admitted := 0
  refused := 0

end Application

/-- The coordinator's `shutdown` among the requests, the signals and the loops. The
end of the grace period cancels `pool.stop`, and with it the worker that it awaits.
`Worker.stop` catches the `CancelledError`, so the pool goes on with the next worker
and no `TimeoutError` comes back. A worker that is cancelled may also go on, when
what it awaits swallows the cancellation. -/
def applicationNext (parts : Components) (workerConcurrency : Nat) (s : Application α) :
    ApplicationStep α → Option (Application α)
  | .createJob =>
    some (if s.shutdown.initiated then { s with refused := s.refused + 1 }
      else { s with admitted := s.admitted + 1 })
  | .signal sig => some { s with shutdown := s.shutdown.onSignal sig }
  | .cycle step =>
    step.loop.bind fun loop =>
      if parts.workerPool && s.moves step loop then
        (cyclesNext workerConcurrency s.cycles step).map fun cycles =>
          { s with
            cycles := cycles
            unfinishedTasks := s.unfinishedTasks + (step.puts s.cycles).length
            dispatched := s.dispatched ++ step.puts s.cycles }
      else none
  | .work i step =>
    (s.workers[i]?).bind fun w => (loopNext s.cycles.queue w step).map fun p =>
      let worked : Application α := { s with
        cycles := { s.cycles with queue := p.1 }
        workers := s.workers.set i p.2.1
        processed := s.processed ++ p.2.2 }
      match step with
      | .finish => worked.taskDone
      | _ => worked
  | .shutdown =>
    match s.stage with
    | .serving => some (s.proceed (s.shutdown.shutdown parts))
    | _ => none
  | .pollingLoopEnds =>
    match s.stage with
    | .pollingLoop =>
      some { s.dropCycle .polling with pollingLoop := false, stage := .recoveryLoop }
    | _ => none
  | .recoveryLoopEnds =>
    match s.stage with
    | .recoveryLoop =>
      some ({ s.dropCycle .recovery with recoveryLoop := false }.proceed (s.shutdown.taskManagerReturns parts))
    | _ => none
  | .schedulerEnds =>
    match s.stage with
    | .scheduler =>
      some ({ s with schedulerLoop := false }.proceed (s.shutdown.schedulerReturns parts))
    | _ => none
  | .stopWorker =>
    match s.stage with
    | .stopping i =>
      match s.workers[i]? with
      | none => some (s.proceed (s.shutdown.workerPoolReturns parts))
      | some w =>
        if w.running then
          some { s with
            workers := s.workers.set i { w with running := false }
            stage := .joining i }
        else some { s with stage := .stopping (i + 1) }
    | _ => none
  | .joined =>
    match s.stage with
    | .joining i =>
      match s.workers[i]? with
      | some ⟨_, none⟩ => some { s with stage := .stopping (i + 1) }
      | _ => none
    | _ => none
  | .graceExpires =>
    match s.stage, s.timedOut with
    | .joining i, none => some { s with timedOut := some i }
    | _, _ => none
  | .cancelled =>
    s.timedOut.bind fun i =>
      match s.workers[i]? with
      | some ⟨running, some .receive⟩ =>
        some { s with workers := s.workers.set i ⟨running, none⟩ }
      | some ⟨running, some (.process task)⟩ =>
        some ({ s with
          workers := s.workers.set i ⟨running, none⟩
          abandoned := s.abandoned ++ [task] } : Application α).taskDone
      | _ => none
  | .databaseCloses =>
    match s.stage with
    | .closing => some (s.proceed s.shutdown.databaseReturns)
    | _ => none

def ShutdownStage.rank : ShutdownStage → Nat
  | .serving => 0
  | .pollingLoop => 1
  | .recoveryLoop => 2
  | .scheduler => 3
  | .stopping _ | .joining _ => 4
  | .closing => 5
  | .returned => 6

/-- The flags that belong to a stage. -/
def ShutdownState.reached (parts : Components) (stage : ShutdownStage) (initiated : Bool)
    (signal : Option Nat) : ShutdownState where
  initiated := initiated
  signal := signal
  apiClosed := 1 ≤ stage.rank
  taskManagerStopped := parts.taskManager && 3 ≤ stage.rank
  schedulerStopped := parts.scheduler && 4 ≤ stage.rank
  workerPoolDraining := parts.workerPool && 4 ≤ stage.rank
  workerPoolStopped := parts.workerPool && 5 ≤ stage.rank
  databaseClosed := parts.database && 6 ≤ stage.rank
  completed := 6 ≤ stage.rank

/-- The stage of the two stops alone. -/
def ShutdownStage.stopStage : ShutdownStage → StopStage
  | .serving | .pollingLoop => .pollingLoop
  | .recoveryLoop | .scheduler => .recoveryLoop
  | .stopping i => .stopping i
  | .joining i => .joining i
  | .closing | .returned => .returned

/-- Everything that the stages before have awaited is gone. -/
structure Application.Ended (s : Application α) (stage : ShutdownStage) : Prop where
  polling : 2 ≤ stage.rank → s.pollingLoop = false
  recovery : 3 ≤ stage.rank → s.recoveryLoop = false
  scheduler : 4 ≤ stage.rank → s.schedulerLoop = false
  workers : ∀ (j : Nat) (w : Worker α), s.workers[j]? = some w → Placed stage.stopStage j w

/-- The component that the stage waits for has been given. -/
def ShutdownStage.Within (parts : Components) : ShutdownStage → Prop
  | .serving | .returned => True
  | .pollingLoop | .recoveryLoop => parts.taskManager = true
  | .scheduler => parts.scheduler = true
  | .stopping _ | .joining _ => parts.workerPool = true
  | .closing => parts.database = true

/-- What a stage asks for when the shutdown comes to it. -/
structure Application.Enters (parts : Components) (s : Application α) (stage : ShutdownStage) :
    Prop where
  ended : s.Ended stage
  within : stage.Within parts
  later : stage ≠ .serving

/-- A worker that the pool waits for, or that the end of the grace period has
cancelled, has been told to stop. -/
structure Application.Told (s : Application α) : Prop where
  joining : ∀ (i : Nat) (w : Worker α), s.stage = .joining i → s.workers[i]? = some w →
    w.running = false
  timedOut : ∀ (i : Nat) (w : Worker α), s.timedOut = some i → s.workers[i]? = some w →
    w.running = false

structure Application.Ordered (parts : Components) (s : Application α) : Prop where
  manager : parts.taskManager = false → s.pollingLoop = false ∧ s.recoveryLoop = false
  refresh : parts.scheduler = false → s.schedulerLoop = false
  staff : parts.workerPool = false → s.workers = []
  flags : s.shutdown = .reached parts s.stage s.shutdown.initiated s.shutdown.signal
  initiated : s.stage ≠ .serving → s.shutdown.initiated = true
  within : s.stage.Within parts
  ended : s.Ended s.stage

/-- What a step needs and does. -/
inductive ApplicationEffect (parts : Components) (workerConcurrency : Nat) (s : Application α) :
    ApplicationStep α → Application α → Prop
  | refused : s.shutdown.initiated = true →
      ApplicationEffect parts workerConcurrency s .createJob { s with refused := s.refused + 1 }
  | admitted : s.shutdown.initiated = false →
      ApplicationEffect parts workerConcurrency s .createJob { s with admitted := s.admitted + 1 }
  | signal (sig : Nat) : ApplicationEffect parts workerConcurrency s (.signal sig)
      { s with shutdown := s.shutdown.onSignal sig }
  | cycle {step loop cycles} : step.loop = some loop → parts.workerPool = true →
      s.moves step loop = true → cyclesNext workerConcurrency s.cycles step = some cycles →
      ApplicationEffect parts workerConcurrency s (.cycle step) { s with
        cycles := cycles
        unfinishedTasks := s.unfinishedTasks + (step.puts s.cycles).length
        dispatched := s.dispatched ++ step.puts s.cycles }
  | work {i : Nat} {w act queue' w'} : s.workers[i]? = some w →
      LoopFacts s.cycles.queue queue' w w' act [] →
      ApplicationEffect parts workerConcurrency s (.work i act) { s with
        cycles := { s.cycles with queue := queue' }
        workers := s.workers.set i w' }
  | finished {i : Nat} {w w' task} : s.workers[i]? = some w →
      LoopFacts s.cycles.queue s.cycles.queue w w' .finish [task] →
      ApplicationEffect parts workerConcurrency s (.work i .finish) ({ s with
        workers := s.workers.set i w'
        processed := s.processed ++ [task] } : Application α).taskDone
  | shutdown : s.stage = .serving → ApplicationEffect parts workerConcurrency s .shutdown
      (s.proceed (s.shutdown.shutdown parts))
  | pollingLoopEnds : s.stage = .pollingLoop →
      ApplicationEffect parts workerConcurrency s .pollingLoopEnds
        { s.dropCycle .polling with pollingLoop := false, stage := .recoveryLoop }
  | recoveryLoopEnds : s.stage = .recoveryLoop →
      ApplicationEffect parts workerConcurrency s .recoveryLoopEnds
        ({ s.dropCycle .recovery with recoveryLoop := false }.proceed
          (s.shutdown.taskManagerReturns parts))
  | schedulerEnds : s.stage = .scheduler → ApplicationEffect parts workerConcurrency s .schedulerEnds
      ({ s with schedulerLoop := false }.proceed (s.shutdown.schedulerReturns parts))
  | poolReturns {i : Nat} : s.stage = .stopping i → s.workers[i]? = none →
      ApplicationEffect parts workerConcurrency s .stopWorker
        (s.proceed (s.shutdown.workerPoolReturns parts))
  | told {i : Nat} {w} : s.stage = .stopping i → s.workers[i]? = some w → w.running = true →
      ApplicationEffect parts workerConcurrency s .stopWorker { s with
        workers := s.workers.set i { w with running := false }
        stage := .joining i }
  | skipped {i : Nat} {w} : s.stage = .stopping i → s.workers[i]? = some w → w.running = false →
      ApplicationEffect parts workerConcurrency s .stopWorker { s with stage := .stopping (i + 1) }
  | joined {i : Nat} {w} : s.stage = .joining i → s.workers[i]? = some w → w.loop = none →
      ApplicationEffect parts workerConcurrency s .joined { s with stage := .stopping (i + 1) }
  | graceExpires {i : Nat} : s.stage = .joining i → s.timedOut = none →
      ApplicationEffect parts workerConcurrency s .graceExpires { s with timedOut := some i }
  | cancelledWaiting {i : Nat} {w} : s.timedOut = some i → s.workers[i]? = some w →
      w.loop = some .receive → ApplicationEffect parts workerConcurrency s .cancelled { s with
        workers := s.workers.set i { w with loop := none } }
  | cancelledWorking {i : Nat} {w task} : s.timedOut = some i → s.workers[i]? = some w →
      w.loop = some (.process task) → ApplicationEffect parts workerConcurrency s .cancelled ({ s with
        workers := s.workers.set i { w with loop := none }
        abandoned := s.abandoned ++ [task] } : Application α).taskDone
  | databaseCloses : s.stage = .closing →
      ApplicationEffect parts workerConcurrency s .databaseCloses
        (s.proceed s.shutdown.databaseReturns)

variable {parts : Components} {workerConcurrency : Nat} {s s' : Application α}
  {a : ApplicationStep α} {i : Nat} {w w' : Worker α}

theorem loopNext_done {queue queue' : BoundedQueue α} {act : LoopStep} {done : List α}
    (h : loopNext queue w act = some (queue', w', done)) :
    (act ≠ .finish ∧ done = []) ∨ (act = .finish ∧ queue' = queue ∧ ∃ task, done = [task]) := by
  obtain ⟨running, loop⟩ := w
  unfold loopNext at h
  cases act with
  | check =>
    obtain _ | _ | _ | _ := loop <;> cases h
    exact Or.inl ⟨by simp, rfl⟩
  | receive =>
    obtain _ | _ | _ | _ := loop
    · cases h
    · cases h
    · obtain ⟨⟨task, rest⟩, -, same⟩ := Option.map_eq_some_iff.mp h
      cases same
      exact Or.inl ⟨by simp, rfl⟩
    · cases h
  | timeout =>
    obtain _ | _ | _ | _ := loop <;> cases h
    exact Or.inl ⟨by simp, rfl⟩
  | finish =>
    obtain _ | _ | _ | task := loop <;> cases h
    exact Or.inr ⟨rfl, rfl, task, rfl⟩

theorem work_effect {act : LoopStep}
    (h : applicationNext parts workerConcurrency s (.work i act) = some s') :
    ApplicationEffect parts workerConcurrency s (.work i act) s' := by
  obtain ⟨w, at_i, h⟩ := Option.bind_eq_some_iff.mp h
  obtain ⟨⟨queue', w', done⟩, next, same⟩ := Option.map_eq_some_iff.mp h
  have facts := loopNext_facts next
  rcases loopNext_done next with ⟨other, rfl⟩ | ⟨rfl, rfl, task, rfl⟩
  · cases act with
    | finish => exact absurd rfl other
    | _ =>
      rw [← same]
      simp only [List.append_nil]
      exact .work at_i facts
  · rw [← same]
    exact .finished at_i facts

theorem stopWorker_effect (h : applicationNext parts workerConcurrency s .stopWorker = some s') :
    ApplicationEffect parts workerConcurrency s .stopWorker s' := by
  simp only [applicationNext] at h
  split at h
  next i turn =>
    split at h
    next none_left =>
      cases Option.some.inj h
      exact .poolReturns turn none_left
    next w at_i =>
      split at h
      next runs =>
        cases Option.some.inj h
        exact .told turn at_i runs
      next stopped =>
        cases Option.some.inj h
        exact .skipped turn at_i (by simpa using stopped)
  next => cases h

theorem cancelled_effect (h : applicationNext parts workerConcurrency s .cancelled = some s') :
    ApplicationEffect parts workerConcurrency s .cancelled s' := by
  obtain ⟨i, timed_out, h⟩ := Option.bind_eq_some_iff.mp h
  split at h
  next running at_i =>
    cases Option.some.inj h
    exact .cancelledWaiting timed_out at_i rfl
  next running task at_i =>
    cases Option.some.inj h
    exact .cancelledWorking timed_out at_i rfl
  next => cases h

theorem applicationNext_effect (h : applicationNext parts workerConcurrency s a = some s') :
    ApplicationEffect parts workerConcurrency s a s' := by
  cases a with
  | createJob =>
    cases Option.some.inj h
    cases shut : s.shutdown.initiated with
    | true => exact .refused shut
    | false => exact .admitted shut
  | signal sig =>
    cases Option.some.inj h
    exact .signal sig
  | cycle step =>
    obtain ⟨loop, taken, h⟩ := Option.bind_eq_some_iff.mp h
    split at h
    next may =>
      obtain ⟨cycles, next, rfl⟩ := Option.map_eq_some_iff.mp h
      rw [Bool.and_eq_true] at may
      exact .cycle taken may.1 may.2 next
    next => cases h
  | work i step => exact work_effect h
  | shutdown =>
    simp only [applicationNext] at h
    split at h
    next turn =>
      cases Option.some.inj h
      exact .shutdown turn
    next => cases h
  | pollingLoopEnds =>
    simp only [applicationNext] at h
    split at h
    next turn =>
      cases Option.some.inj h
      exact .pollingLoopEnds turn
    next => cases h
  | recoveryLoopEnds =>
    simp only [applicationNext] at h
    split at h
    next turn =>
      cases Option.some.inj h
      exact .recoveryLoopEnds turn
    next => cases h
  | schedulerEnds =>
    simp only [applicationNext] at h
    split at h
    next turn =>
      cases Option.some.inj h
      exact .schedulerEnds turn
    next => cases h
  | stopWorker => exact stopWorker_effect h
  | joined =>
    simp only [applicationNext] at h
    split at h
    next i turn =>
      split at h
      next at_i =>
        cases Option.some.inj h
        exact .joined turn at_i rfl
      next => cases h
    next => cases h
  | graceExpires =>
    simp only [applicationNext] at h
    split at h
    next i turn in_time =>
      cases Option.some.inj h
      exact .graceExpires turn in_time
    next => cases h
  | cancelled => exact cancelled_effect h
  | databaseCloses =>
    simp only [applicationNext] at h
    split at h
    next turn =>
      cases Option.some.inj h
      exact .databaseCloses turn
    next => cases h

variable {signal : Option Nat}

theorem shutdown_reached (initiated : Bool) :
    (ShutdownState.shutdown parts (.reached parts .serving initiated signal)).1 =
      .reached parts (ShutdownState.shutdown parts (.reached parts .serving initiated signal)).2
        true signal := by
  obtain ⟨manager, refresh, pool, database⟩ := parts
  cases manager <;> cases refresh <;> cases pool <;> cases database <;> rfl

theorem taskManagerReturns_reached (given : parts.taskManager = true) :
    (ShutdownState.taskManagerReturns parts (.reached parts .recoveryLoop true signal)).1 =
      .reached parts
        (ShutdownState.taskManagerReturns parts (.reached parts .recoveryLoop true signal)).2
        true signal := by
  obtain ⟨manager, refresh, pool, database⟩ := parts
  cases given
  cases refresh <;> cases pool <;> cases database <;> rfl

theorem schedulerReturns_reached (given : parts.scheduler = true) :
    (ShutdownState.schedulerReturns parts (.reached parts .scheduler true signal)).1 =
      .reached parts (ShutdownState.schedulerReturns parts (.reached parts .scheduler true signal)).2
        true signal := by
  obtain ⟨manager, refresh, pool, database⟩ := parts
  cases given
  cases manager <;> cases pool <;> cases database <;> rfl

theorem workerPoolReturns_reached (given : parts.workerPool = true) :
    (ShutdownState.workerPoolReturns parts (.reached parts (.stopping i) true signal)).1 =
      .reached parts
        (ShutdownState.workerPoolReturns parts (.reached parts (.stopping i) true signal)).2
        true signal := by
  obtain ⟨manager, refresh, pool, database⟩ := parts
  cases given
  cases manager <;> cases refresh <;> cases database <;> rfl

theorem databaseReturns_reached (given : parts.database = true) :
    (ShutdownState.reached parts .closing true signal).databaseReturns =
      (.reached parts .returned true signal, .returned) := by
  obtain ⟨manager, refresh, pool, database⟩ := parts
  cases given
  cases manager <;> cases refresh <;> cases pool <;> rfl

theorem reached_congr {stage stage' : ShutdownStage} (same : stage.rank = stage'.rank) :
    ShutdownState.reached parts stage = .reached parts stage' := by
  unfold ShutdownState.reached
  rw [same]

theorem within_draining {stage : ShutdownStage} (rank : stage.rank = 4) :
    stage.Within parts ↔ parts.workerPool = true := by
  cases stage with
  | stopping | joining => exact Iff.rfl
  | _ => cases rank

namespace Application

theorem enters_closeDatabase (f : ShutdownState) (polling : s.pollingLoop = false)
    (recovery : s.recoveryLoop = false) (scheduler : s.schedulerLoop = false)
    (placed : ∀ (j : Nat) (w : Worker α), s.workers[j]? = some w → Placed .returned j w) :
    s.Enters parts (f.closeDatabase parts).2 := by
  unfold ShutdownState.closeDatabase
  split
  next given => exact ⟨⟨fun _ => polling, fun _ => recovery, fun _ => scheduler, placed⟩, given, nofun⟩
  next => exact ⟨⟨fun _ => polling, fun _ => recovery, fun _ => scheduler, placed⟩, trivial, nofun⟩

theorem enters_drainWorkerPool (f : ShutdownState) (polling : s.pollingLoop = false)
    (recovery : s.recoveryLoop = false) (scheduler : s.schedulerLoop = false)
    (staff : parts.workerPool = false → s.workers = [])
    (placed : ∀ (j : Nat) (w : Worker α), s.workers[j]? = some w → Placed (.stopping 0) j w) :
    s.Enters parts (f.drainWorkerPool parts).2 := by
  unfold ShutdownState.drainWorkerPool
  split
  next given => exact ⟨⟨fun _ => polling, fun _ => recovery, fun _ => scheduler, placed⟩, given, nofun⟩
  next absent =>
    have nobody := staff (by simpa using absent)
    refine enters_closeDatabase f polling recovery scheduler ?_
    intro j w at_j
    rw [nobody] at at_j
    cases at_j

theorem enters_stopScheduler (f : ShutdownState) (polling : s.pollingLoop = false)
    (recovery : s.recoveryLoop = false) (refresh : parts.scheduler = false → s.schedulerLoop = false)
    (staff : parts.workerPool = false → s.workers = [])
    (placed : ∀ (j : Nat) (w : Worker α), s.workers[j]? = some w → Placed .recoveryLoop j w) :
    s.Enters parts (f.stopScheduler parts).2 := by
  unfold ShutdownState.stopScheduler
  split
  next given =>
    have early : ¬ 4 ≤ ShutdownStage.scheduler.rank := by decide
    exact ⟨⟨fun _ => polling, fun _ => recovery, fun h => absurd h early, placed⟩, given, nofun⟩
  next absent =>
    refine enters_drainWorkerPool f polling recovery (refresh (by simpa using absent)) staff ?_
    intro j w at_j
    exact (placed j w at_j).to_stage False.elim (fun past => absurd past (Nat.not_lt_zero j))

theorem enters_stopTaskManager (f : ShutdownState)
    (manager : parts.taskManager = false → s.pollingLoop = false ∧ s.recoveryLoop = false)
    (refresh : parts.scheduler = false → s.schedulerLoop = false)
    (staff : parts.workerPool = false → s.workers = [])
    (placed : ∀ (j : Nat) (w : Worker α), s.workers[j]? = some w → Placed .pollingLoop j w) :
    s.Enters parts (f.stopTaskManager parts).2 := by
  unfold ShutdownState.stopTaskManager
  split
  next given =>
    have first : ¬ 2 ≤ ShutdownStage.pollingLoop.rank := by decide
    have second : ¬ 3 ≤ ShutdownStage.pollingLoop.rank := by decide
    have third : ¬ 4 ≤ ShutdownStage.pollingLoop.rank := by decide
    exact ⟨⟨fun h => absurd h first, fun h => absurd h second, fun h => absurd h third, placed⟩,
      given, nofun⟩
  next absent =>
    obtain ⟨polling, recovery⟩ := manager (by simpa using absent)
    refine enters_stopScheduler f polling recovery refresh staff ?_
    intro j w at_j
    exact (placed j w at_j).to_stage id id

theorem Ordered.proceed {next : ShutdownState × ShutdownStage}
    (manager : parts.taskManager = false → s.pollingLoop = false ∧ s.recoveryLoop = false)
    (refresh : parts.scheduler = false → s.schedulerLoop = false)
    (staff : parts.workerPool = false → s.workers = [])
    (flags : next.1 = .reached parts next.2 true signal) (enters : s.Enters parts next.2) :
    (s.proceed next).Ordered parts where
  manager := manager
  refresh := refresh
  staff := staff
  flags := by
    have same : next.1.initiated = true ∧ next.1.signal = signal := by rw [flags]; exact ⟨rfl, rfl⟩
    change next.1 = .reached parts next.2 next.1.initiated next.1.signal
    rw [same.1, same.2]
    exact flags
  initiated := by
    intro _
    change next.1.initiated = true
    rw [flags]
    rfl
  within := enters.within
  ended := ⟨enters.ended.polling, enters.ended.recovery, enters.ended.scheduler,
    enters.ended.workers⟩

theorem Ordered.reached (inv : s.Ordered parts) {stage : ShutdownStage} (turn : s.stage = stage)
    (later : stage ≠ .serving) : s.shutdown = .reached parts stage true s.shutdown.signal := by
  have flags := inv.flags
  rw [turn, inv.initiated (turn ▸ later)] at flags
  exact flags

theorem Ordered.placed (inv : s.Ordered parts) {stage : ShutdownStage} (turn : s.stage = stage)
    (j : Nat) (w : Worker α) (at_j : s.workers[j]? = some w) : Placed stage.stopStage j w :=
  turn ▸ inv.ended.workers j w at_j

@[simp] theorem taskDone_shutdown (s : Application α) : s.taskDone.shutdown = s.shutdown := by
  unfold taskDone; split <;> rfl

@[simp] theorem taskDone_stage (s : Application α) : s.taskDone.stage = s.stage := by
  unfold taskDone; split <;> rfl

@[simp] theorem taskDone_workers (s : Application α) : s.taskDone.workers = s.workers := by
  unfold taskDone; split <;> rfl

@[simp] theorem taskDone_timedOut (s : Application α) : s.taskDone.timedOut = s.timedOut := by
  unfold taskDone; split <;> rfl

@[simp] theorem taskDone_loops (s : Application α) :
    s.taskDone.pollingLoop = s.pollingLoop ∧ s.taskDone.recoveryLoop = s.recoveryLoop ∧
      s.taskDone.schedulerLoop = s.schedulerLoop := by
  unfold taskDone; split <;> exact ⟨rfl, rfl, rfl⟩

theorem Told.set {workers : List (Worker α)} (at_i : workers[i]? = some w)
    (keeps : w.running = false → w'.running = false) {j : Nat} {v : Worker α}
    (told : ∀ u : Worker α, workers[j]? = some u → u.running = false)
    (at_j : (workers.set i w')[j]? = some v) : v.running = false := by
  rcases getElem?_set_cases at_j with ⟨rfl, rfl⟩ | ⟨-, before⟩
  · exact keeps (told w at_i)
  · exact told v before

theorem Told.transfer {t : Application α} (told : s.Told) (at_i : s.workers[i]? = some w)
    (workers : t.workers = s.workers.set i w') (keeps : w.running = false → w'.running = false)
    (stage : t.stage = s.stage) (timed_out : t.timedOut = s.timedOut) : t.Told where
  joining := by
    intro j v turn at_j
    rw [workers] at at_j
    exact Told.set at_i keeps (fun u => told.joining j u (stage ▸ turn)) at_j
  timedOut := by
    intro j v expired at_j
    rw [workers] at at_j
    exact Told.set at_i keeps (fun u => told.timedOut j u (timed_out ▸ expired)) at_j

theorem Told.to_stage {t : Application α} (told : s.Told)
    (joining : ∀ (j : Nat) (v : Worker α), t.stage = .joining j → s.workers[j]? = some v →
      v.running = false)
    (timed_out : t.timedOut = s.timedOut) (workers : t.workers = s.workers) : t.Told where
  joining := fun j v turn at_j => joining j v turn (workers ▸ at_j)
  timedOut := fun j v expired at_j => told.timedOut j v (timed_out ▸ expired) (workers ▸ at_j)

theorem closeDatabase_not_joining (f : ShutdownState) (j : Nat) :
    (f.closeDatabase parts).2 ≠ .joining j := by
  unfold ShutdownState.closeDatabase
  split <;> exact nofun

theorem drainWorkerPool_not_joining (f : ShutdownState) (j : Nat) :
    (f.drainWorkerPool parts).2 ≠ .joining j := by
  unfold ShutdownState.drainWorkerPool
  split
  · exact nofun
  · exact closeDatabase_not_joining f j

theorem stopScheduler_not_joining (f : ShutdownState) (j : Nat) :
    (f.stopScheduler parts).2 ≠ .joining j := by
  unfold ShutdownState.stopScheduler
  split
  · exact nofun
  · exact drainWorkerPool_not_joining f j

theorem stopTaskManager_not_joining (f : ShutdownState) (j : Nat) :
    (f.stopTaskManager parts).2 ≠ .joining j := by
  unfold ShutdownState.stopTaskManager
  split
  · exact nofun
  · exact stopScheduler_not_joining f j

theorem Told.step (told : s.Told)
    (h : applicationNext parts workerConcurrency s a = some s') : s'.Told := by
  cases applicationNext_effect h with
  | refused | admitted | signal | cycle => exact ⟨told.joining, told.timedOut⟩
  | work at_i facts => exact told.transfer at_i rfl facts.running.trans rfl rfl
  | finished at_i facts =>
    exact told.transfer at_i (by simp) facts.running.trans (by simp) (by simp)
  | shutdown =>
    exact told.to_stage (fun j _ turn => absurd turn (stopTaskManager_not_joining _ j)) rfl rfl
  | pollingLoopEnds => exact told.to_stage nofun rfl rfl
  | recoveryLoopEnds =>
    exact told.to_stage (fun j _ turn => absurd turn (stopScheduler_not_joining _ j)) rfl rfl
  | schedulerEnds =>
    exact told.to_stage (fun j _ turn => absurd turn (drainWorkerPool_not_joining _ j)) rfl rfl
  | poolReturns =>
    exact told.to_stage (fun j _ turn => absurd turn (closeDatabase_not_joining _ j)) rfl rfl
  | @told i w turn at_i =>
    refine ⟨?_, fun j v expired at_j => Told.set at_i (fun _ => rfl)
      (fun u => told.timedOut j u expired) at_j⟩
    intro j v joining at_j
    have same := ShutdownStage.joining.inj joining
    rcases getElem?_set_cases at_j with ⟨-, rfl⟩ | ⟨other, -⟩
    · rfl
    · exact absurd same.symm other
  | skipped | joined => exact told.to_stage nofun rfl rfl
  | graceExpires turn =>
    refine ⟨told.joining, ?_⟩
    intro j v expired at_j
    have same := Option.some.inj expired
    exact told.joining j v (same ▸ turn) at_j
  | cancelledWaiting _ at_i => exact told.transfer at_i rfl id rfl rfl
  | cancelledWorking _ at_i => exact told.transfer at_i (taskDone_workers _) id (by simp) (by simp)
  | databaseCloses => exact told.to_stage nofun rfl rfl

theorem Ordered.frame {t : Application α} (inv : s.Ordered parts) (shutdown : t.shutdown = s.shutdown)
    (stage : t.stage = s.stage) (loops : t.pollingLoop = s.pollingLoop ∧
      t.recoveryLoop = s.recoveryLoop ∧ t.schedulerLoop = s.schedulerLoop)
    (staff : s.workers = [] → t.workers = [])
    (workers : ∀ (j : Nat) (w : Worker α), t.workers[j]? = some w → Placed t.stage.stopStage j w) :
    t.Ordered parts := by
  obtain ⟨polling, recovery, scheduler⟩ := loops
  refine ⟨?_, ?_, fun absent => staff (inv.staff absent), ?_, ?_, ?_, ⟨?_, ?_, ?_, workers⟩⟩
  · rw [polling, recovery]; exact inv.manager
  · rw [scheduler]; exact inv.refresh
  · rw [shutdown, stage]; exact inv.flags
  · rw [shutdown, stage]; exact inv.initiated
  · rw [stage]; exact inv.within
  · rw [stage, polling]; exact inv.ended.polling
  · rw [stage, recovery]; exact inv.ended.recovery
  · rw [stage, scheduler]; exact inv.ended.scheduler

theorem Ordered.on_signal (inv : s.Ordered parts) (sig : Nat) :
    ({ s with shutdown := s.shutdown.onSignal sig } : Application α).Ordered parts := by
  unfold ShutdownState.onSignal
  split
  next => exact inv
  next fresh =>
    have serving : s.stage = .serving := by
      by_contra later
      exact fresh (inv.initiated later)
    have flags := inv.flags
    refine ⟨inv.manager, inv.refresh, inv.staff, ?_, fun later => absurd serving later, inv.within,
      ⟨inv.ended.polling, inv.ended.recovery, inv.ended.scheduler, inv.ended.workers⟩⟩
    change { s.shutdown with initiated := true, signal := some sig } =
      ShutdownState.reached parts s.stage true (some sig)
    rw [flags]
    rfl

/-- A worker takes a step of its loop, or is cancelled. -/
theorem Ordered.set_worker {t : Application α} (inv : s.Ordered parts)
    (workers : t.workers = s.workers.set i w') (placed : Placed s.stage.stopStage i w')
    (shutdown : t.shutdown = s.shutdown) (stage : t.stage = s.stage)
    (loops : t.pollingLoop = s.pollingLoop ∧ t.recoveryLoop = s.recoveryLoop ∧
      t.schedulerLoop = s.schedulerLoop) : t.Ordered parts := by
  refine inv.frame shutdown stage loops ?_ ?_
  · intro nobody
    rw [workers, nobody]
    rfl
  · intro j v at_j
    rw [workers] at at_j
    rw [stage]
    rcases getElem?_set_cases at_j with ⟨rfl, rfl⟩ | ⟨-, before⟩
    · exact placed
    · exact inv.ended.workers j v before

/-- The pool goes on with its workers. -/
theorem Ordered.to_worker {t : Application α} (inv : s.Ordered parts) (before : s.stage.rank = 4)
    (after : t.stage.rank = 4) (shutdown : t.shutdown = s.shutdown)
    (loops : t.pollingLoop = s.pollingLoop ∧ t.recoveryLoop = s.recoveryLoop ∧
      t.schedulerLoop = s.schedulerLoop) (staff : s.workers = [] → t.workers = [])
    (workers : ∀ (j : Nat) (w : Worker α), t.workers[j]? = some w → Placed t.stage.stopStage j w) :
    t.Ordered parts := by
  obtain ⟨polling, recovery, scheduler⟩ := loops
  have given := (within_draining before).mp inv.within
  have later : s.stage ≠ .serving := by
    intro serving
    rw [serving] at before
    cases before
  refine ⟨?_, ?_, fun absent => staff (inv.staff absent), ?_, ?_, (within_draining after).mpr given,
    ⟨?_, ?_, ?_, workers⟩⟩
  · rw [polling, recovery]; exact inv.manager
  · rw [scheduler]; exact inv.refresh
  · rw [shutdown, reached_congr (after.trans before.symm)]; exact inv.flags
  · rw [shutdown]; exact fun _ => inv.initiated later
  · intro _; rw [polling]; exact inv.ended.polling (by omega)
  · intro _; rw [recovery]; exact inv.ended.recovery (by omega)
  · intro _; rw [scheduler]; exact inv.ended.scheduler (by omega)

theorem Ordered.told (inv : s.Ordered parts) (turn : s.stage = .stopping i)
    (at_i : s.workers[i]? = some w) : ({ s with
      workers := s.workers.set i { w with running := false }
      stage := .joining i } : Application α).Ordered parts := by
  refine inv.to_worker (by rw [turn]; rfl) rfl rfl ⟨rfl, rfl, rfl⟩ ?_ ?_
  · intro nobody
    rw [nobody] at at_i
    cases at_i
  · intro j v at_j
    rcases getElem?_set_cases at_j with ⟨rfl, rfl⟩ | ⟨-, before⟩
    · exact ⟨nofun, fun _ => Nat.le_refl j, fun past => absurd past (Nat.lt_irrefl j)⟩
    · exact (inv.placed turn j v before).to_stage Nat.le_of_lt id

theorem Ordered.joined (inv : s.Ordered parts) (turn : s.stage = .joining i)
    (at_i : s.workers[i]? = some w) (gone : w.loop = none) :
    ({ s with stage := .stopping (i + 1) } : Application α).Ordered parts := by
  refine inv.to_worker (by rw [turn]; rfl) rfl rfl ⟨rfl, rfl, rfl⟩ id ?_
  intro j v at_j
  have placed := inv.placed turn j v at_j
  by_cases same : j = i
  · subst same
    have unique : v = w := Option.some.inj (at_j.symm.trans at_i)
    exact ⟨placed.running, fun _ => Nat.lt_succ_self j, fun _ => unique ▸ gone⟩
  · refine placed.to_stage Nat.lt_succ_of_le fun past => ?_
    exact Nat.lt_of_le_of_ne (Nat.le_of_lt_succ past) same

/-- Nobody has been told to stop before it is its turn. -/
theorem Ordered.running (inv : s.Ordered parts) (turn : s.stage = .stopping i)
    (at_i : s.workers[i]? = some w) : w.running = true := by
  by_contra stopped
  have reached := (inv.placed turn i w at_i).reached (by simpa using stopped)
  exact Nat.lt_irrefl i reached

theorem Ordered.pool_returns (inv : s.Ordered parts) (turn : s.stage = .stopping i)
    (none_left : s.workers[i]? = none) :
    (s.proceed (s.shutdown.workerPoolReturns parts)).Ordered parts := by
  have rank : s.stage.rank = 4 := by rw [turn]; rfl
  have given := (within_draining rank).mp inv.within
  have flags : (s.shutdown.workerPoolReturns parts).1 =
      .reached parts (s.shutdown.workerPoolReturns parts).2 true s.shutdown.signal := by
    rw [inv.reached turn nofun]
    exact workerPoolReturns_reached given
  refine Ordered.proceed inv.manager inv.refresh inv.staff flags ?_
  refine enters_closeDatabase _ (inv.ended.polling (by omega)) (inv.ended.recovery (by omega))
    (inv.ended.scheduler (by omega)) ?_
  intro j w at_j
  have inside := (List.getElem?_eq_some_iff.mp at_j).1
  have length := List.getElem?_eq_none_iff.mp none_left
  have past : j < i := Nat.lt_of_lt_of_le inside length
  exact (inv.placed turn j w at_j).to_stage (fun _ => trivial) (fun _ => past)

theorem Ordered.begins (inv : s.Ordered parts) (turn : s.stage = .serving) :
    (s.proceed (s.shutdown.shutdown parts)).Ordered parts := by
  have before := inv.flags
  rw [turn] at before
  have flags : (s.shutdown.shutdown parts).1 =
      .reached parts (s.shutdown.shutdown parts).2 true s.shutdown.signal := by
    rw [before]
    exact shutdown_reached _
  exact Ordered.proceed inv.manager inv.refresh inv.staff flags
    (enters_stopTaskManager _ inv.manager inv.refresh inv.staff (inv.placed turn))

theorem Ordered.polling_ends (inv : s.Ordered parts) (turn : s.stage = .pollingLoop) :
    ({ s.dropCycle .polling with pollingLoop := false, stage := .recoveryLoop } :
      Application α).Ordered parts := by
  have given := inv.within
  have flags := inv.reached turn nofun
  have started : s.shutdown.initiated = true := by rw [flags]; rfl
  have early : ¬ 3 ≤ ShutdownStage.recoveryLoop.rank := by decide
  have earlier : ¬ 4 ≤ ShutdownStage.recoveryLoop.rank := by decide
  rw [turn] at given
  refine ⟨fun absent => ⟨rfl, (inv.manager absent).2⟩, inv.refresh, inv.staff, ?_, fun _ => started,
    given, ⟨fun _ => rfl, fun h => absurd h early, fun h => absurd h earlier, ?_⟩⟩
  · change s.shutdown = .reached parts .recoveryLoop s.shutdown.initiated s.shutdown.signal
    rw [started]
    exact flags
  · intro j w at_j
    exact (inv.placed turn j w at_j).to_stage id id

theorem Ordered.recovery_ends (inv : s.Ordered parts) (turn : s.stage = .recoveryLoop) :
    ({ s.dropCycle .recovery with recoveryLoop := false }.proceed
      (s.shutdown.taskManagerReturns parts)).Ordered parts := by
  have given := inv.within
  have rank : s.stage.rank = 2 := by rw [turn]; rfl
  have polling := inv.ended.polling (by omega)
  rw [turn] at given
  have flags : (s.shutdown.taskManagerReturns parts).1 =
      .reached parts (s.shutdown.taskManagerReturns parts).2 true s.shutdown.signal := by
    rw [inv.reached turn nofun]
    exact taskManagerReturns_reached given
  exact Ordered.proceed (fun absent => ⟨polling, rfl⟩) inv.refresh inv.staff flags
    (enters_stopScheduler _ polling rfl inv.refresh inv.staff (inv.placed turn))

theorem Ordered.scheduler_ends (inv : s.Ordered parts) (turn : s.stage = .scheduler) :
    ({ s with schedulerLoop := false }.proceed (s.shutdown.schedulerReturns parts)).Ordered
      parts := by
  have given := inv.within
  have rank : s.stage.rank = 3 := by rw [turn]; rfl
  rw [turn] at given
  have flags : (s.shutdown.schedulerReturns parts).1 =
      .reached parts (s.shutdown.schedulerReturns parts).2 true s.shutdown.signal := by
    rw [inv.reached turn nofun]
    exact schedulerReturns_reached given
  refine Ordered.proceed inv.manager (fun _ => rfl) inv.staff flags ?_
  refine enters_drainWorkerPool _ (inv.ended.polling (by omega)) (inv.ended.recovery (by omega)) rfl
    inv.staff ?_
  intro j w at_j
  exact (inv.placed turn j w at_j).to_stage False.elim (fun past => absurd past (Nat.not_lt_zero j))

theorem Ordered.database_closes (inv : s.Ordered parts) (turn : s.stage = .closing) :
    (s.proceed s.shutdown.databaseReturns).Ordered parts := by
  have given := inv.within
  have rank : s.stage.rank = 5 := by rw [turn]; rfl
  rw [turn] at given
  rw [inv.reached turn nofun, databaseReturns_reached given]
  refine Ordered.proceed inv.manager inv.refresh inv.staff rfl ⟨⟨?_, ?_, ?_, ?_⟩, trivial, nofun⟩
  · exact fun _ => inv.ended.polling (by omega)
  · exact fun _ => inv.ended.recovery (by omega)
  · exact fun _ => inv.ended.scheduler (by omega)
  · have placed := inv.placed turn
    exact placed

theorem Ordered.cancelled {t : Application α} (inv : s.Ordered parts) (told : s.Told)
    (timed_out : s.timedOut = some i) (at_i : s.workers[i]? = some w)
    (workers : t.workers = s.workers.set i { w with loop := none })
    (shutdown : t.shutdown = s.shutdown) (stage : t.stage = s.stage)
    (loops : t.pollingLoop = s.pollingLoop ∧ t.recoveryLoop = s.recoveryLoop ∧
      t.schedulerLoop = s.schedulerLoop) : t.Ordered parts := by
  have stopped := told.timedOut i w timed_out at_i
  have placed := inv.ended.workers i w at_i
  refine inv.set_worker workers ⟨?_, placed.reached, fun _ => rfl⟩ shutdown stage loops
  intro runs
  rw [stopped] at runs
  cases runs

theorem Ordered.step (inv : s.Ordered parts) (told : s.Told)
    (h : applicationNext parts workerConcurrency s a = some s') : s'.Ordered parts := by
  cases applicationNext_effect h with
  | refused | admitted | cycle | graceExpires =>
    exact inv.frame rfl rfl ⟨rfl, rfl, rfl⟩ id inv.ended.workers
  | signal sig => exact inv.on_signal sig
  | work at_i facts =>
    exact inv.set_worker rfl ((inv.ended.workers _ _ at_i).work facts) rfl rfl ⟨rfl, rfl, rfl⟩
  | finished at_i facts =>
    exact inv.set_worker (taskDone_workers _) ((inv.ended.workers _ _ at_i).work facts)
      (taskDone_shutdown _) (taskDone_stage _) (taskDone_loops _)
  | shutdown turn => exact inv.begins turn
  | pollingLoopEnds turn => exact inv.polling_ends turn
  | recoveryLoopEnds turn => exact inv.recovery_ends turn
  | schedulerEnds turn => exact inv.scheduler_ends turn
  | poolReturns turn none_left => exact inv.pool_returns turn none_left
  | told turn at_i => exact inv.told turn at_i
  | skipped turn at_i stopped =>
    rw [inv.running turn at_i] at stopped
    cases stopped
  | joined turn at_i gone => exact inv.joined turn at_i gone
  | cancelledWaiting timed_out at_i =>
    exact inv.cancelled told timed_out at_i rfl rfl rfl ⟨rfl, rfl, rfl⟩
  | cancelledWorking timed_out at_i =>
    exact inv.cancelled told timed_out at_i (taskDone_workers _) (taskDone_shutdown _)
      (taskDone_stage _) (taskDone_loops _)
  | databaseCloses turn => exact inv.database_closes turn

theorem Ordered.start (queue : BoundedQueue α) :
    (startup parts workerConcurrency queue).Ordered parts where
  manager := fun absent => ⟨absent, absent⟩
  refresh := id
  staff := by
    intro absent
    unfold startup
    rw [if_neg (by simp [absent])]
  flags := by
    unfold startup ShutdownState.reached
    simp [ShutdownState.initial, ShutdownStage.rank]
  initiated := fun later => absurd rfl later
  within := trivial
  ended := by
    refine ⟨nofun, nofun, nofun, ?_⟩
    intro j w at_j
    have started : w = ⟨true, some .check⟩ := by
      have mem := List.mem_of_getElem? at_j
      unfold startup at mem
      split at mem
      next => exact List.eq_of_mem_replicate mem
      next => cases mem
    rw [started]
    exact ⟨nofun, nofun, False.elim⟩

theorem Told.start (queue : BoundedQueue α) : (startup parts workerConcurrency queue).Told :=
  ⟨nofun, nofun⟩

theorem Ordered.run {queue : BoundedQueue α} {trace : List (Application α × ApplicationStep α)}
    (run : Run (applicationNext parts workerConcurrency)
      (startup parts workerConcurrency queue) trace s) : s.Ordered parts ∧ s.Told :=
  run.invariant (P := fun t => t.Ordered parts ∧ t.Told) ⟨Ordered.start queue, Told.start queue⟩
    fun inv h => ⟨inv.1.step inv.2 h, inv.2.step h⟩

/-- No loop of the application is alive. -/
structure Quiet (s : Application α) : Prop where
  polling : s.pollingLoop = false
  recovery : s.recoveryLoop = false
  scheduler : s.schedulerLoop = false
  workers : ∀ w ∈ s.workers, w.loop = none

theorem Ordered.quiet (inv : s.Ordered parts) (closing : 5 ≤ s.stage.rank) : s.Quiet where
  polling := inv.ended.polling (by omega)
  recovery := inv.ended.recovery (by omega)
  scheduler := inv.ended.scheduler (by omega)
  workers := by
    intro w mem
    obtain ⟨j, at_j⟩ := List.mem_iff_getElem?.mp mem
    have placed := inv.ended.workers j w at_j
    cases turn : s.stage with
    | closing => rw [turn] at placed; exact placed.past trivial
    | returned => rw [turn] at placed; exact placed.past trivial
    | _ => rw [turn] at closing; exact absurd closing (by simp [ShutdownStage.rank])

theorem moves_of_gone (polling : s.pollingLoop = false) (recovery : s.recoveryLoop = false)
    (step : CycleStep α) (loop : ManagerLoop) : s.moves step loop = false := by
  cases loop with
  | polling => simp only [moves, polling, Bool.false_and]
  | recovery => cases step <;> simp only [moves, recovery, Bool.false_and]

theorem Quiet.steps (quiet : s.Quiet) (closing : 5 ≤ s.stage.rank)
    (h : applicationNext parts workerConcurrency s a = some s') :
    a = .createJob ∨ (∃ sig, a = .signal sig) ∨ a = .databaseCloses := by
  have gone : ∀ (i : Nat) (w : Worker α), s.workers[i]? = some w → w.loop = none :=
    fun i w at_i => quiet.workers w (List.mem_of_getElem? at_i)
  have later : ∀ stage : ShutdownStage, stage.rank < 5 → s.stage ≠ stage := by
    rintro stage early rfl
    omega
  cases applicationNext_effect h with
  | refused | admitted => exact Or.inl rfl
  | signal sig => exact Or.inr (Or.inl ⟨sig, rfl⟩)
  | databaseCloses => exact Or.inr (Or.inr rfl)
  | cycle _ _ moving =>
    rw [moves_of_gone quiet.polling quiet.recovery] at moving
    cases moving
  | work at_i facts | finished at_i facts => exact absurd (gone _ _ at_i) facts.alive
  | cancelledWaiting _ at_i point | cancelledWorking _ at_i point =>
    rw [gone _ _ at_i] at point
    cases point
  | shutdown turn | pollingLoopEnds turn | recoveryLoopEnds turn | schedulerEnds turn
  | poolReturns turn | told turn | skipped turn | joined turn | graceExpires turn =>
    refine absurd turn (later _ ?_)
    simp [ShutdownStage.rank]

@[simp] theorem closeDatabase_initiated (f : ShutdownState) :
    (f.closeDatabase parts).1.initiated = f.initiated := by
  unfold ShutdownState.closeDatabase
  split <;> rfl

@[simp] theorem drainWorkerPool_initiated (f : ShutdownState) :
    (f.drainWorkerPool parts).1.initiated = f.initiated := by
  unfold ShutdownState.drainWorkerPool
  split <;> simp

@[simp] theorem stopScheduler_initiated (f : ShutdownState) :
    (f.stopScheduler parts).1.initiated = f.initiated := by
  unfold ShutdownState.stopScheduler
  split <;> simp

@[simp] theorem stopTaskManager_initiated (f : ShutdownState) :
    (f.stopTaskManager parts).1.initiated = f.initiated := by
  unfold ShutdownState.stopTaskManager
  split <;> simp

theorem closed_step (closed : s.shutdown.initiated = true)
    (h : applicationNext parts workerConcurrency s a = some s') :
    s'.shutdown.initiated = true ∧ s'.admitted = s.admitted := by
  cases applicationNext_effect h with
  | admitted still_open =>
    rw [closed] at still_open
    cases still_open
  | signal sig =>
    simp only [ShutdownState.onSignal, closed, if_true]
    exact ⟨trivial, trivial⟩
  | finished | cancelledWorking =>
    rw [taskDone_shutdown]
    exact ⟨closed, by unfold taskDone; split <;> rfl⟩
  | shutdown => simp [proceed, ShutdownState.shutdown]
  | recoveryLoopEnds => simp [proceed, ShutdownState.taskManagerReturns, dropCycle, closed]
  | schedulerEnds => simp [proceed, ShutdownState.schedulerReturns, closed]
  | poolReturns => simp [proceed, ShutdownState.workerPoolReturns, closed]
  | _ => exact ⟨closed, rfl⟩

end Application

section Order

variable {queue : BoundedQueue α} {trace : List (Application α × ApplicationStep α)}

/-- The flags always tell how far the shutdown has come. When it comes to close the
database, every loop is gone, and nothing but requests and signals comes after. -/
theorem shutdown_in_order (run : Run (applicationNext parts workerConcurrency)
    (.startup parts workerConcurrency queue) trace s) :
    s.shutdown = .reached parts s.stage s.shutdown.initiated s.shutdown.signal ∧
      (5 ≤ s.stage.rank → s.Quiet) ∧
      ∀ p ∈ trace, 5 ≤ p.1.stage.rank →
        p.2 = .createJob ∨ (∃ sig, p.2 = .signal sig) ∨ p.2 = .databaseCloses := by
  have inv := (Application.Ordered.run run).1
  refine ⟨inv.flags, inv.quiet, ?_⟩
  intro p mem closing
  obtain ⟨later, earlier, rfl⟩ := List.append_of_mem mem
  obtain ⟨t, before, -⟩ := Run.of_append run
  cases before with
  | step before h => exact ((Application.Ordered.run before).1.quiet closing).steps closing h

def oneWorker : Application Nat :=
  .startup (createApp true true) 1 ⟨[], 1, ⟨1, 0, 0, 0, 0⟩, by decide, Nat.zero_le 1⟩

theorem shutdown_in_order_idle : ∃ s, exec (applicationNext (createApp true true) 1) oneWorker
      [.signal 15, .shutdown, .pollingLoopEnds, .recoveryLoopEnds, .schedulerEnds, .stopWorker,
        .work 0 .check, .joined, .stopWorker, .createJob, .databaseCloses] = some s ∧
    s.shutdown = ⟨true, some 15, true, true, true, true, true, true, true⟩ ∧ s.Quiet := by
  obtain ⟨s, hs, flags, late⟩ : ∃ s, exec (applicationNext (createApp true true) 1) oneWorker
      [.signal 15, .shutdown, .pollingLoopEnds, .recoveryLoopEnds, .schedulerEnds, .stopWorker,
        .work 0 .check, .joined, .stopWorker, .createJob, .databaseCloses] = some s ∧
      s.shutdown = ⟨true, some 15, true, true, true, true, true, true, true⟩ ∧ 5 ≤ s.stage.rank :=
    ⟨_, rfl, rfl, Nat.le_succ 5⟩
  exact ⟨s, hs, flags, (shutdown_in_order (exec_run hs)).2.1 late⟩

/-- After a signal or the begin of the shutdown `create_job` admits nothing more. -/
theorem closed_admits_nothing (closed : s.shutdown.initiated = true)
    (run : Run (applicationNext parts workerConcurrency) s trace s') :
    s'.shutdown.initiated = true ∧ s'.admitted = s.admitted := by
  refine run.invariant (P := fun t => t.shutdown.initiated = true ∧ t.admitted = s.admitted)
    ⟨closed, rfl⟩ ?_
  rintro t a u ⟨closed, same⟩ h
  obtain ⟨closed', same'⟩ := Application.closed_step closed h
  exact ⟨closed', same'.trans same⟩

end Order

end DomainProcessing
