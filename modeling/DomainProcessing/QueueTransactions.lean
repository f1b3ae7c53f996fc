import DomainProcessing.RowLocks
import DomainProcessing.Runs
import DomainProcessing.TaskRepository

namespace DomainProcessing

open Tables OrderedSelection RowLocks Runs

abbrev TxId := Nat

/-- The two batch operations on the task queue. -/
inductive QueueOp
  | claimTasks (limit : Int) (leaseExpiresAt : Instant) (taskTypes : Option (List TaskType))
      (now : Instant)
  | recoverExpiredTasks (maxAttempts : Nat) (limit : Int) (now updatedAt : Instant)
      (draws : TaskId → RetryDraw)

namespace QueueOp

def isClaim : QueueOp → Bool
  | .claimTasks _ _ _ _ => true
  | .recoverExpiredTasks _ _ _ _ _ => false

def limit : QueueOp → Int
  | .claimTasks limit _ _ _ | .recoverExpiredTasks _ limit _ _ _ => limit

/-- The `WHERE` clause. -/
def wants : QueueOp → Task → Bool
  | .claimTasks _ _ taskTypes _ => claimable (taskTypes.getD [.userRequest, .refresh])
  | .recoverExpiredTasks _ _ now _ _ => leaseExpired now

def row : QueueOp → Task → Task
  | .claimTasks _ leaseExpiresAt _ now, t => claimRow leaseExpiresAt now t
  | .recoverExpiredTasks maxAttempts _ _ updatedAt draws, t =>
    recoverRow maxAttempts updatedAt (draws t.id) t

/-- The rows the query returns from a table none of whose rows is locked. -/
def selection : QueueOp → List Task → List Task
  | .claimTasks limit _ taskTypes _ => claimSelection limit taskTypes
  | .recoverExpiredTasks _ limit now _ _ => recoverySelection limit now

/-- The operation as one atomic step. -/
def atomic : QueueOp → TaskTable → TaskTable
  | .claimTasks limit leaseExpiresAt taskTypes now, tasks =>
    (DomainProcessing.claimTasks limit leaseExpiresAt taskTypes now tasks).1
  | .recoverExpiredTasks maxAttempts limit now updatedAt draws, tasks =>
    (DomainProcessing.recoverExpiredTasks maxAttempts limit now updatedAt draws tasks).1

end QueueOp

inductive QueuePhase
  | idle
  | running (op : QueueOp) (rows : List TaskId) (updated : Bool)
  | finished

/-- What has happened to the queue, the latest event first. -/
inductive QueueEvent
  | selected (tx : TxId)
  | claimed (tx : TxId) (rows : List TaskId)
  | recovered (tx : TxId) (requeued : List TaskId)
  deriving DecidableEq

def QueueEvent.claims (k : TaskId) : QueueEvent → Bool
  | .claimed _ rows => rows.contains k
  | _ => false

def QueueEvent.requeues (k : TaskId) : QueueEvent → Bool
  | .recovered _ requeued => requeued.contains k
  | _ => false

structure QueueState where
  tasks : Store TxId TaskId Task
  phase : TxId → QueuePhase
  history : List QueueEvent

inductive QueueStep
  | select (tx : TxId) (op : QueueOp) (rows : List TaskId)
  | update (tx : TxId)
  | commit (tx : TxId)
  | rollback (tx : TxId)

/-- What `FOR UPDATE SKIP LOCKED` may return: at most `limit` rows that nobody
has locked and whose committed version satisfies the `WHERE` clause. -/
def Returnable (tasks : Store TxId TaskId Task) (op : QueueOp) (rows : List TaskId) : Prop :=
  rows.Nodup ∧ (rows.length : Int) ≤ max op.limit 0 ∧
    ∀ k ∈ rows, tasks.locks k = none ∧ ∃ t ∈ tasks.committed k, op.wants t = true

instance (tasks : Store TxId TaskId Task) (op : QueueOp) (rows : List TaskId) :
    Decidable (Returnable tasks op rows) :=
  inferInstanceAs (Decidable (rows.Nodup ∧ (rows.length : Int) ≤ max op.limit 0 ∧
    ∀ k ∈ rows, tasks.locks k = none ∧ ∃ t ∈ tasks.committed k, op.wants t = true))

/-- The event of a commit: a claim returns its rows, a recovery has put some of
its rows back to `PENDING`. -/
def commitEvent (tasks : Store TxId TaskId Task) (tx : TxId) (op : QueueOp) (rows : List TaskId) :
    QueueEvent :=
  if op.isClaim then .claimed tx rows
  else .recovered tx (rows.filter fun k => (tasks.view tx k).any (fun t => t.status == .pending))

def queueNext (s : QueueState) : QueueStep → Option QueueState
  | .select tx op rows =>
    match s.phase tx with
    | .idle =>
      if Returnable s.tasks op rows then
        some ⟨s.tasks.lockAll tx rows, Function.update s.phase tx (.running op rows false),
          .selected tx :: s.history⟩
      else none
    | _ => none
  | .update tx =>
    match s.phase tx with
    | .running op rows false =>
      some { s with
        tasks := s.tasks.writeAll tx rows op.row
        phase := Function.update s.phase tx (.running op rows true) }
    | _ => none
  | .commit tx =>
    match s.phase tx with
    | .running op rows true =>
      some ⟨s.tasks.commit tx, Function.update s.phase tx .finished,
        commitEvent s.tasks tx op rows :: s.history⟩
    | _ => none
  | .rollback tx =>
    match s.phase tx with
    | .running _ _ _ =>
      some { s with tasks := s.tasks.rollback tx, phase := Function.update s.phase tx .finished }
    | _ => none

def queueInit (tasks : TaskTable) : QueueState := ⟨.idle tasks.get, fun _ => .idle, []⟩

end DomainProcessing
