import DomainProcessing.ServiceRuns

namespace DomainProcessing

open Tables OrderedSelection Runs

/-- How a worker's run of `process_task` ends: with one of the write helpers, or
without a write. -/
inductive WorkerWrite
  | complete (now : Instant)
  | fail (error : String) (now : Instant)
  | failWithDeactivation (error : String) (failure : PermanentFailure) (now : Instant)
  | reschedule (error : String) (now : Instant) (draw : RetryDraw)
  | nothing

def WorkerWrite.apply (maxAttempts : Nat) (db : Db) (task : Task) : WorkerWrite → Db
  | .complete now => writeCompleteTask db task.id .completed now
  | .fail error now => writeFailTask db task.id error .permanent now
  | .failWithDeactivation error failure now =>
    writeFailTaskWithDeactivation db task.id task.domainId error failure.category failure.errorCode now
  | .reschedule error now draw => writeRescheduleTask maxAttempts db task.id error now draw
  | .nothing => db

def WorkerWrite.row (maxAttempts : Nat) : WorkerWrite → Task → Task
  | .complete now => completeRow .completed now
  | .fail error now => failRow error .permanent now
  | .failWithDeactivation error failure now => failRow error failure.category now
  | .reschedule error now draw => rescheduleRow maxAttempts error now draw
  | .nothing => id

theorem WorkerWrite.row_id (maxAttempts : Nat) (write : WorkerWrite) (t : Task) :
    (write.row maxAttempts t).id = t.id := by
  cases write with
  | reschedule error now draw => exact rescheduleRow_id maxAttempts error now draw t
  | _ => rfl

theorem WorkerWrite.row_subject (maxAttempts : Nat) (write : WorkerWrite) (t : Task) :
    (write.row maxAttempts t).domainId = t.domainId ∧ (write.row maxAttempts t).type = t.type ∧
      (write.row maxAttempts t).attempts = t.attempts := by
  cases write with
  | reschedule error now draw =>
    simp only [WorkerWrite.row, rescheduleRow]
    split <;> exact ⟨rfl, rfl, rfl⟩
  | _ => exact ⟨rfl, rfl, rfl⟩

theorem WorkerWrite.apply_tasks (maxAttempts : Nat) (write : WorkerWrite) (db : Db) (task : Task) :
    (write.apply maxAttempts db task).tasks =
      db.tasks.set task.id (write.row maxAttempts) (write.row_id maxAttempts) := by
  cases write with
  | complete now => exact writeTerminal_tasks _ _ _ _ _
  | fail error now => exact writeTerminal_tasks _ _ _ _ _
  | failWithDeactivation error failure now => exact writeFailTaskWithDeactivation_tasks _ _ _ _ _ _ _
  | reschedule error now draw => exact writeRescheduleTask_tasks _ _ _ _ _ _
  | nothing =>
    apply Table.ext
    simp only [WorkerWrite.apply, WorkerWrite.row, Table.set, Table.update, id_eq, ite_self]
    exact (List.map_id _).symm

theorem WorkerWrite.apply_details (maxAttempts : Nat) (write : WorkerWrite) (db : Db) (task : Task) :
    (write.apply maxAttempts db task).details = db.details := by
  cases write with
  | complete now => exact writeTerminal_details _ _ _ _ _
  | fail error now => exact writeTerminal_details _ _ _ _ _
  | failWithDeactivation error failure now => exact writeFailTaskWithDeactivation_details _ _ _ _ _ _ _
  | reschedule error now draw => exact writeRescheduleTask_details _ _ _ _ _ _
  | nothing => rfl

/-- A worker's write leaves the domains alone or deactivates the one of its task. -/
theorem WorkerWrite.apply_domains {maxAttempts : Nat} {write : WorkerWrite} {db : Db} {task : Task}
    (stored : db.tasks.get task.id = some task) :
    (write.apply maxAttempts db task).domains = db.domains ∨
      ∃ now, (write.apply maxAttempts db task).domains =
        (deactivateDomain db task.domainId now).domains := by
  cases write with
  | complete now => exact Or.inl (writeTerminal_domains _ _ _ _ _)
  | fail error now => exact Or.inl (writeTerminal_domains _ _ _ _ _)
  | failWithDeactivation error failure now =>
    simp only [WorkerWrite.apply, writeFailTaskWithDeactivation]
    split
    · right
      refine ⟨now, ?_⟩
      simp only [deactivateDomain, writeTerminal_domains]
    · exact Or.inl (writeTerminal_domains _ _ _ _ _)
  | reschedule error now draw =>
    by_cases left : task.attempts < maxAttempts
    · exact Or.inl (writeRescheduleTask_domains db error now draw stored left)
    · have exhausted : maxAttempts ≤ task.attempts := by omega
      have deactivates : shouldSoftDeactivate .transient "MAX_ATTEMPTS_EXCEEDED" = true := by decide
      right
      refine ⟨now, ?_⟩
      simp only [WorkerWrite.apply, writeRescheduleTask, stored, if_pos exhausted, if_pos deactivates]
      simp only [deactivateDomain, checkAndUpdateJobStatus_domains]
  | nothing => exact Or.inl rfl

structure ManagerSettings where
  workerQueueCapacity : Nat
  taskLeaseSeconds : Nat
  maxAttempts : Nat

/-- One `TaskManager` with its queue and its workers. A task is in a worker's
hands from the `get` until its final write. -/
structure DispatchState where
  db : Db
  claimed : List (Instant × Task)
  claimCycle : List Task
  recoveryCycle : List Task
  queue : List Task
  hands : List Task
  dispatched : List Task

inductive DispatchStep
  | claimCycle (limit : Int) (now : Instant)
  | putClaimed
  | recoveryCycle (limit : Int) (now updatedAt : Instant) (draws : TaskId → RetryDraw)
  | putRecovered
  | get
  | finish (task : Task) (write : WorkerWrite)

/-- `queue.put`, which waits while the queue is full. -/
def DispatchState.put (settings : ManagerSettings) (s : DispatchState) (task : Task) :
    Option DispatchState :=
  if s.queue.length < settings.workerQueueCapacity then
    some { s with queue := s.queue ++ [task], dispatched := s.dispatched ++ [task] }
  else none

/-- A cycle's batch size is computed from the queue's capacity before its
transaction, so it is an argument here. -/
def dispatchNext (settings : ManagerSettings) (s : DispatchState) : DispatchStep → Option DispatchState
  | .claimCycle limit now =>
    match s.claimCycle with
    | [] =>
      let leaseExpiresAt := now + seconds settings.taskLeaseSeconds
      let result := claimTasks limit leaseExpiresAt none now s.db.tasks
      some { s with
        db := { s.db with tasks := result.1 }
        claimed := s.claimed ++ result.2.map (fun t => (now, t))
        claimCycle := result.2 }
    | _ :: _ => none
  | .putClaimed =>
    match s.claimCycle with
    | [] => none
    | task :: rest => { s with claimCycle := rest }.put settings task
  | .recoveryCycle limit now updatedAt draws =>
    match s.recoveryCycle with
    | [] =>
      let result := recoverExpiredTasks settings.maxAttempts limit now updatedAt draws s.db.tasks
      some { s with db := { s.db with tasks := result.1 }, recoveryCycle := result.2 }
    | _ :: _ => none
  | .putRecovered =>
    match s.recoveryCycle with
    | [] => none
    | task :: rest =>
      if task.status = .pending then { s with recoveryCycle := rest }.put settings task
      else some { s with recoveryCycle := rest }
  | .get =>
    match s.queue with
    | [] => none
    | task :: rest => some { s with queue := rest, hands := task :: s.hands }
  | .finish task write =>
    if task ∈ s.hands then
      some { s with
        db := write.apply settings.maxAttempts s.db task
        hands := s.hands.erase task }
    else none

def dispatchInit (db : Db) : DispatchState := ⟨db, [], [], [], [], [], []⟩

/-- No task is in the queue or in the workers' hands twice, and every copy that
was put on the queue comes from a claim of its own with a live lease. -/
structure SingleDispatch (s : DispatchState) : Prop where
  single : ((s.queue ++ s.hands).map Task.id).Nodup
  ownClaim : (s.dispatched.map fun t => (t.id, t.attempts)).Nodup
  liveLease : ∀ t ∈ s.dispatched, ∃ now lease, (now, t) ∈ s.claimed ∧ t.status = .processing ∧
    t.leaseExpiresAt = some lease ∧ now < lease

/-- A recovery batch finds expired tasks only at the end of their budget. -/
def RecoversExhausted (settings : ManagerSettings) (s : DispatchState) : DispatchStep → Prop
  | .recoveryCycle limit now _ _ =>
    ∀ t ∈ recoverySelection limit now s.db.tasks.rows, settings.maxAttempts ≤ t.attempts
  | _ => True

end DomainProcessing
