import DomainProcessing.RowLocks
import DomainProcessing.ServiceRuns

namespace DomainProcessing

open Tables RowLocks Runs

/-- The transactions that make a task terminal. -/
inductive TerminalWrite
  | writeCompleteTask
  | completeTask
  | writeFailTask (error : String)
  | writeFailTaskWithDeactivation (error : String) (failure : PermanentFailure)
  | exhaustedReschedule (error : String)

def TerminalWrite.row (maxAttempts : Nat) (now : Instant) : TerminalWrite → Task → Task
  | .writeCompleteTask | .completeTask => completeRow .completed now
  | .writeFailTask error => failRow error .permanent now
  | .writeFailTaskWithDeactivation error failure => failRow error failure.category now
  | .exhaustedReschedule error => exhaustRow maxAttempts error now

/-- A job to be closed by one transaction for each of its open tasks. -/
structure JobClosing where
  db : Db
  jobId : JobId
  maxAttempts : Nat
  write : TaskId → TerminalWrite
  now : TaskId → Instant

/-- The transactions are named by their tasks. -/
def JobClosing.session (c : JobClosing) (k : TaskId) : Bool :=
  (c.db.tasks.get k).any (fun t => decide (t.jobId = some c.jobId) && t.status.isOpen)

def JobClosing.row (c : JobClosing) (k : TaskId) : Task → Task :=
  (c.write k).row c.maxAttempts (c.now k)

inductive ClosingPhase
  | ready
  | written
  | locked
  | counted (openTasks : Nat)
  | evaluated
  | committed
  deriving DecidableEq

/-- The transaction has written its task row and has not committed. -/
def ClosingPhase.active : ClosingPhase → Bool
  | .ready | .committed => false
  | .written | .locked | .counted _ | .evaluated => true

/-- The transaction is inside the `FOR UPDATE` of the job row. -/
def ClosingPhase.critical : ClosingPhase → Bool
  | .ready | .written | .committed => false
  | .locked | .counted _ | .evaluated => true

abbrev Phases := TaskId → ClosingPhase

def Phases.move (phase : Phases) (k : TaskId) (p : ClosingPhase) : Phases := Function.update phase k p

structure ClosingState where
  tasks : Store TaskId TaskId Task
  jobs : Store TaskId JobId Job
  phase : Phases

inductive ClosingStep
  | writeTask (k : TaskId)
  | lockJob (k : TaskId)
  | countOpen (k : TaskId)
  | writeJob (k : TaskId)
  | commit (k : TaskId)

namespace JobClosing

variable (c : JobClosing)

def init : ClosingState := ⟨.idle c.db.tasks.get, .idle c.db.jobs.get, fun _ => .ready⟩

/-- The count of `_check_and_update_job_status`, as transaction `k` reads it. -/
def openSeen (tasks : Store TaskId TaskId Task) (k : TaskId) : Nat :=
  nonTerminalCount (c.db.tasks.rows.filterMap fun t => tasks.view k t.id) c.jobId

def next (s : ClosingState) : ClosingStep → Option ClosingState
  | .writeTask k =>
    if c.session k = true ∧ s.phase k = .ready then
      (s.tasks.write k k (c.row k)).map fun tasks =>
        { s with tasks := tasks, phase := s.phase.move k .written }
    else none
  | .lockJob k =>
    if s.phase k = .written then
      (s.jobs.lock k c.jobId).map fun jobs => { s with jobs := jobs, phase := s.phase.move k .locked }
    else none
  | .countOpen k =>
    if s.phase k = .locked then some { s with phase := s.phase.move k (.counted (c.openSeen s.tasks k)) }
    else none
  | .writeJob k =>
    match s.phase k with
    | .counted n =>
      (s.jobs.write k c.jobId (evaluateJobStatus n (c.now k))).map fun jobs =>
        { s with jobs := jobs, phase := s.phase.move k .evaluated }
    | _ => none
  | .commit k =>
    if s.phase k = .evaluated then
      some ⟨s.tasks.commit k, s.jobs.commit k, s.phase.move k .committed⟩
    else none

end JobClosing

end DomainProcessing
