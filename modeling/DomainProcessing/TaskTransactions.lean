import DomainProcessing.Dispatch
import DomainProcessing.QueueTransactions
import DomainProcessing.RefreshScheduler

namespace DomainProcessing

open Tables RowLocks Runs

/-- A column of an `UPDATE`, which a flush names only when it has changed. -/
def flushed {α : Type*} [DecidableEq α] (read written current : α) : α :=
  if written = read then current else written

/-- The `UPDATE` of a row that was `read` and `written` in memory, applied to
its current version. -/
def flushRow (read written current : Task) : Task :=
  { current with
    status := flushed read.status written.status current.status
    attempts := flushed read.attempts written.attempts current.attempts
    nextAttemptAt := flushed read.nextAttemptAt written.nextAttemptAt current.nextAttemptAt
    leaseExpiresAt := flushed read.leaseExpiresAt written.leaseExpiresAt current.leaseExpiresAt
    errorPayload := flushed read.errorPayload written.errorPayload current.errorPayload
    updatedAt := flushed read.updatedAt written.updatedAt current.updatedAt }

theorem flushRow_id (read written current : Task) :
    (flushRow read written current).id = current.id := rfl

/-- Where one transaction on the task table stands. -/
inductive TaskPhase
  | idle
  | checking (now : Instant) (todo : List DomainId) (created : List Task)
  | running (op : QueueOp) (rows : List TaskId) (updated : Bool)
  | read (write : WorkerWrite) (row : Task)
  | flushed (write : WorkerWrite) (row : Task)
  | finished

inductive TaskAction
  | discover (domains : Table Domain.id) (details : Table DomainDetail.domainId) (maxTasks : Int)
      (now : Instant)
  | check (uuid : TaskId)
  | select (op : QueueOp) (rows : List TaskId)
  | readTask (taskId : TaskId) (write : WorkerWrite)
  | flush
  | commit
  | rollback

/-- The committed tasks, the tasks handed out by a claim, and the rows that
running transactions have locked. -/
structure TaskState where
  tasks : TaskTable
  claimed : List TaskId
  locks : TaskId → Option TxId
  phase : TxId → TaskPhase

namespace TaskState

def init (tasks : TaskTable) : TaskState := ⟨tasks, [], fun _ => none, fun _ => .idle⟩

def store (s : TaskState) : Store TxId TaskId Task :=
  ⟨s.tasks.get, fun k => (s.locks k).map fun tx => (tx, s.tasks.get k)⟩

def move (s : TaskState) (tx : TxId) (phase : TaskPhase) : TaskState :=
  { s with phase := Function.update s.phase tx phase }

def lock (s : TaskState) (tx : TxId) (rows : List TaskId) : TaskState :=
  { s with locks := fun k => if k ∈ rows then some tx else s.locks k }

/-- The locks of `tx` go, and the table is the one it leaves. -/
def finish (s : TaskState) (tx : TxId) (tasks : TaskTable) : TaskState :=
  { s with
    tasks := tasks
    locks := fun k => (s.locks k).filter fun holder => decide (holder ≠ tx)
    phase := Function.update s.phase tx .finished }

end TaskState

/-- The rows of a batch operation, as its transaction leaves them. -/
def queueWrite (op : QueueOp) (rows : List TaskId) (tasks : TaskTable) : TaskTable :=
  tasks.update (fun t => if t.id ∈ rows then op.row t else t) fun t => by
    split
    next =>
      cases op with
      | claimTasks => rfl
      | recoverExpiredTasks => exact recoverRow_id _ _ _ _
    next => rfl

def workerWrite (maxAttempts : Nat) (write : WorkerWrite) (row : Task) (tasks : TaskTable) : TaskTable :=
  tasks.set row.id (flushRow row (write.row maxAttempts row)) (flushRow_id row _)

/-- One statement of transaction `tx`: of a scheduler's tick, of a claim or a
recovery, or of a worker's write. -/
def taskNext (maxAttempts : Nat) (s : TaskState) (step : TxId × TaskAction) : Option TaskState :=
  let tx := step.1
  match s.phase tx, step.2 with
  | .idle, .discover domains details maxTasks now =>
    if 0 < maxTasks then
      some (s.move tx
        (.checking now (getDomainsNeedingRefresh domains maxTasks now details.rows) []))
    else none
  | .checking now (domainId :: todo) created, .check uuid =>
    match (s.tasks.rows ++ created).filter (openRefresh domainId) with
    | [] => some (s.move tx (.checking now todo (created ++ [refreshTask uuid domainId now])))
    | [_] => some (s.move tx (.checking now todo created))
    | _ :: _ :: _ => some (s.finish tx s.tasks)
  | .checking _ [] created, .commit => (s.tasks.insert created).map (s.finish tx)
  | .idle, .select op rows =>
    if Returnable s.store op rows then some ((s.lock tx rows).move tx (.running op rows false))
    else none
  | .running op rows false, .flush => some (s.move tx (.running op rows true))
  | .running op rows true, .commit =>
    some { s.finish tx (queueWrite op rows s.tasks) with
      claimed := if op.isClaim then rows ++ s.claimed else s.claimed }
  | .idle, .readTask taskId write =>
    if taskId ∈ s.claimed then
      (s.tasks.get taskId).map fun row => s.move tx (.read write row)
    else none
  | .read write row, .flush =>
    if s.locks row.id = none then some ((s.lock tx [row.id]).move tx (.flushed write row)) else none
  | .flushed write row, .commit => some (s.finish tx (workerWrite maxAttempts write row s.tasks))
  | .idle, .rollback | .finished, .rollback => none
  | _, .rollback => some (s.finish tx s.tasks)
  | _, _ => none

abbrev TaskRun (maxAttempts : Nat) := Run (taskNext maxAttempts)

/-- The steps that `taskNext` allows. -/
inductive TaskStep (maxAttempts : Nat) (s : TaskState) (tx : TxId) : TaskAction → TaskState → Prop
  | discover {domains details maxTasks now} : s.phase tx = .idle →
      TaskStep maxAttempts s tx (.discover domains details maxTasks now) (s.move tx
        (.checking now (getDomainsNeedingRefresh domains maxTasks now details.rows) []))
  | create {now domainId todo created uuid} : s.phase tx = .checking now (domainId :: todo) created →
      (s.tasks.rows ++ created).filter (openRefresh domainId) = [] →
      TaskStep maxAttempts s tx (.check uuid)
        (s.move tx (.checking now todo (created ++ [refreshTask uuid domainId now])))
  | skip {now domainId todo created uuid} : s.phase tx = .checking now (domainId :: todo) created →
      TaskStep maxAttempts s tx (.check uuid) (s.move tx (.checking now todo created))
  | select {op rows} : s.phase tx = .idle → Returnable s.store op rows →
      TaskStep maxAttempts s tx (.select op rows)
        ((s.lock tx rows).move tx (.running op rows false))
  | update {op rows} : s.phase tx = .running op rows false →
      TaskStep maxAttempts s tx .flush (s.move tx (.running op rows true))
  | readTask {taskId write row} : s.tasks.get taskId = some row →
      TaskStep maxAttempts s tx (.readTask taskId write) (s.move tx (.read write row))
  | flushWrite {write row} : s.phase tx = .read write row → s.locks row.id = none →
      TaskStep maxAttempts s tx .flush ((s.lock tx [row.id]).move tx (.flushed write row))
  | commitTick {now created tasks} : s.phase tx = .checking now [] created →
      s.tasks.insert created = some tasks → TaskStep maxAttempts s tx .commit (s.finish tx tasks)
  | commitQueue {op rows claimed} : s.phase tx = .running op rows true →
      TaskStep maxAttempts s tx .commit
        { s.finish tx (queueWrite op rows s.tasks) with claimed := claimed }
  | commitWrite {write row} : s.phase tx = .flushed write row →
      TaskStep maxAttempts s tx .commit (s.finish tx (workerWrite maxAttempts write row s.tasks))
  | ended {action} : action ≠ .commit → TaskStep maxAttempts s tx action (s.finish tx s.tasks)

variable {maxAttempts : Nat} {s s' : TaskState} {tx : TxId} {action : TaskAction}
variable {phase : TaskPhase}

theorem taskNext_cases (h : taskNext maxAttempts s (tx, action) = some s') :
    TaskStep maxAttempts s tx action s' := by
  unfold taskNext at h
  dsimp only at h
  split at h
  next hp =>
    obtain ⟨_, h⟩ := Option.ite_none_right_eq_some.mp h
    cases Option.some.inj h
    exact .discover hp
  next hp =>
    split at h
    next free =>
      cases Option.some.inj h
      exact .create hp free
    next =>
      cases Option.some.inj h
      exact .skip hp
    next =>
      cases Option.some.inj h
      exact .ended (by simp)
  next hp =>
    obtain ⟨tasks, inserted, rfl⟩ := Option.map_eq_some_iff.mp h
    exact .commitTick hp inserted
  next hp =>
    obtain ⟨returnable, h⟩ := Option.ite_none_right_eq_some.mp h
    cases Option.some.inj h
    exact .select hp returnable
  next hp =>
    cases Option.some.inj h
    exact .update hp
  next hp =>
    cases Option.some.inj h
    exact .commitQueue hp
  next hp =>
    obtain ⟨_, h⟩ := Option.ite_none_right_eq_some.mp h
    obtain ⟨row, found, rfl⟩ := Option.map_eq_some_iff.mp h
    exact .readTask found
  next hp =>
    obtain ⟨free, h⟩ := Option.ite_none_right_eq_some.mp h
    cases Option.some.inj h
    exact .flushWrite hp free
  next hp =>
    cases Option.some.inj h
    exact .commitWrite hp
  next => cases h
  next => cases h
  next =>
    cases Option.some.inj h
    exact .ended (by simp)
  next => cases h

/-- A claim or a recovery of the rows that the unlocked table offers is the
atomic one. -/
theorem queueWrite_selection (op : QueueOp) (tasks : TaskTable) :
    queueWrite op ((op.selection tasks.rows).map Task.id) tasks = op.atomic tasks := by
  have offered : ∀ t ∈ op.selection tasks.rows, t ∈ tasks.rows := by
    intro t ht
    cases op with
    | claimTasks => exact (mem_claimSelection ht).1
    | recoverExpiredTasks => exact (mem_recoverySelection ht).1
  have selected : ∀ t ∈ tasks.rows,
      (t.id ∈ (op.selection tasks.rows).map Task.id ↔ t ∈ op.selection tasks.rows) := by
    intro t ht
    constructor
    · intro h
      obtain ⟨u, hu, same⟩ := List.mem_map.mp h
      rw [← Table.eq_of_key (offered u hu) ht same]
      exact hu
    · exact List.mem_map_of_mem
  apply Table.ext
  cases op with
  | claimTasks => exact List.map_congr_left fun t ht => if_congr (selected t ht) rfl rfl
  | recoverExpiredTasks => exact List.map_congr_left fun t ht => if_congr (selected t ht) rfl rfl

theorem move_phase (hp : s.phase tx = phase) : s.move tx phase = s := by
  subst hp
  simp only [TaskState.move, Function.update_eq_self]

theorem move_move {first second : TaskPhase} : (s.move tx first).move tx second = s.move tx second := by
  simp only [TaskState.move, Function.update_idem]

theorem exec_checks {uuid : DomainId → TaskId} {now : Instant} {todo : List DomainId}
    {created more : List Task} (hp : s.phase tx = .checking now todo created)
    (h : refreshTasksFor uuid now todo (s.tasks.rows ++ created) = some more) :
    exec (taskNext maxAttempts) s (todo.map fun domainId => (tx, .check (uuid domainId))) =
      some (s.move tx (.checking now [] (created ++ more))) := by
  induction todo generalizing s created more with
  | nil =>
    cases Option.some.inj h
    rw [List.append_nil, move_phase hp]
    rfl
  | cons domainId todo ih =>
    unfold refreshTasksFor at h
    split at h
    next free =>
      obtain ⟨rest, hr, h⟩ := Option.bind_eq_some_iff.mp h
      cases Option.some.inj h
      let task := refreshTask (uuid domainId) domainId now
      have first : taskNext maxAttempts s (tx, .check (uuid domainId)) =
          some (s.move tx (.checking now todo (created ++ [task]))) := by
        simp only [taskNext, hp, free, task]
      have reached : (s.move tx (.checking now todo (created ++ [task]))).phase tx =
          .checking now todo (created ++ [task]) := Function.update_self ..
      rw [List.append_assoc] at hr
      rw [List.map_cons, exec_cons first, ih reached hr, move_move, List.append_assoc]
      rfl
    next existing open_one =>
      have first : taskNext maxAttempts s (tx, .check (uuid domainId)) =
          some (s.move tx (.checking now todo created)) := by
        simp only [taskNext, hp, open_one]
      have reached : (s.move tx (.checking now todo created)).phase tx = .checking now todo created :=
        Function.update_self ..
      rw [List.map_cons, exec_cons first, ih reached h, move_move]
    next => cases h

/-- A tick that meets nobody does what `create_refresh_tasks` does as one
transaction. -/
theorem tick_alone {uuid : DomainId → TaskId} {now : Instant} {domainIds : List DomainId}
    {after : TaskTable} (hp : s.phase tx = .checking now domainIds [])
    (h : createRefreshTasks uuid domainIds now s.tasks = some after) :
    ∃ t, exec (taskNext maxAttempts) s
        ((domainIds.map fun domainId => (tx, .check (uuid domainId))) ++ [(tx, .commit)]) = some t ∧
      t.tasks = after := by
  obtain ⟨created, hc, inserted⟩ := Option.bind_eq_some_iff.mp h
  have seen : refreshTasksFor uuid now domainIds (s.tasks.rows ++ []) = some created := by
    rw [List.append_nil]
    exact hc
  have checked := @exec_checks maxAttempts s tx uuid now domainIds [] created hp seen
  have reached : (s.move tx (.checking now [] ([] ++ created))).phase tx = .checking now [] created :=
    Function.update_self ..
  have last : taskNext maxAttempts (s.move tx (.checking now [] ([] ++ created))) (tx, .commit) =
      some ((s.move tx (.checking now [] ([] ++ created))).finish tx after) := by
    simp only [taskNext, reached]
    exact Option.map_eq_some_iff.mpr ⟨after, inserted, rfl⟩
  exact ⟨_, (exec_append checked).trans (exec_cons last), rfl⟩

end DomainProcessing
