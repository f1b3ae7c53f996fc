import DomainProcessing.TaskRepository

namespace DomainProcessing

open Tables

/-- The categories the processor passes to its write helpers. -/
inductive ErrorCategory
  | retryable
  | permanent
  | security
  | transient
  deriving DecidableEq, Repr

/-- `category.upper() + "_ERROR"` -/
def ErrorCategory.errorCode : ErrorCategory → String
  | .retryable => "RETRYABLE_ERROR"
  | .permanent => "PERMANENT_ERROR"
  | .security => "SECURITY_ERROR"
  | .transient => "TRANSIENT_ERROR"

theorem ErrorCategory.errorCode_ne_empty (category : ErrorCategory) : category.errorCode ≠ "" := by
  cases category <;> decide

def evaluateJobStatus (openTasks : Nat) (now : Instant) (job : Job) : Job :=
  if openTasks = 0 then
    if job.status ≠ .completed then { job with status := .completed, updatedAt := now } else job
  else
    if job.status = .pending then { job with status := .processing, updatedAt := now } else job

theorem evaluateJobStatus_id (openTasks : Nat) (now : Instant) (job : Job) :
    (evaluateJobStatus openTasks now job).id = job.id := by
  unfold evaluateJobStatus
  split <;> split <;> rfl

theorem evaluateJobStatus_completed_iff (openTasks : Nat) (now : Instant) (job : Job) :
    (evaluateJobStatus openTasks now job).status = .completed ↔
      openTasks = 0 ∨ job.status = .completed := by
  unfold evaluateJobStatus
  split <;> split <;> simp_all

def checkAndUpdateJobStatus (db : Db) (jobId : Option JobId) (now : Instant) : Db :=
  match jobId with
  | none => db
  | some jobId =>
    { db with
      jobs := db.jobs.set jobId (evaluateJobStatus (nonTerminalCount db.tasks.rows jobId) now)
        (evaluateJobStatus_id _ _) }

def shouldSoftDeactivate (errorCategory : ErrorCategory) (errorCode : String) : Bool :=
  if errorCategory = .security then true
  else if errorCode = "DNS_PERMANENT_FAILURE" ∨ errorCode = "PERMANENT_ERROR" then true
  else if errorCode = "MAX_ATTEMPTS_EXCEEDED" then true
  else false

def deactivateDomain (db : Db) (domainId : DomainId) (now : Instant) : Db :=
  { db with
    domains := db.domains.set domainId
      (fun d => if d.isActive then
          { d with isActive := false, deactivatedAt := some now, updatedAt := now }
        else d)
      (fun d => by split <;> rfl) }

def completeRow (status : TaskStatus) (now : Instant) (t : Task) : Task :=
  { t with status := status, updatedAt := now }

def failRow (error : String) (category : ErrorCategory) (now : Instant) (t : Task) : Task :=
  { t with
    status := .failed
    updatedAt := now
    errorPayload := some ⟨category.errorCode, error, category == .retryable⟩ }

def exhaustRow (maxAttempts : Nat) (error : String) (now : Instant) (t : Task) : Task :=
  { t with
    status := .failed
    leaseExpiresAt := none
    updatedAt := now
    errorPayload := some (maxAttemptsExceeded
      s!"Task exceeded maximum attempts ({maxAttempts}): {error}") }

def retryRow (error : String) (now : Instant) (draw : RetryDraw) (t : Task) : Task :=
  { t with
    status := .pending
    leaseExpiresAt := none
    updatedAt := now
    errorPayload := some ⟨"TRANSIENT_ERROR", error, true⟩
    nextAttemptAt := draw.nextAttemptAt t.attempts }

/-- The two branches of `_write_reschedule_task`. -/
def rescheduleRow (maxAttempts : Nat) (error : String) (now : Instant) (draw : RetryDraw)
    (t : Task) : Task :=
  if maxAttempts ≤ t.attempts then exhaustRow maxAttempts error now t else retryRow error now draw t

theorem completeRow_id (status : TaskStatus) (now : Instant) (t : Task) :
    (completeRow status now t).id = t.id := rfl

theorem failRow_id (error : String) (category : ErrorCategory) (now : Instant) (t : Task) :
    (failRow error category now t).id = t.id := rfl

theorem rescheduleRow_id (maxAttempts : Nat) (error : String) (now : Instant) (draw : RetryDraw)
    (t : Task) : (rescheduleRow maxAttempts error now draw t).id = t.id := by
  unfold rescheduleRow
  split <;> rfl

/-- Read the task, write its row, re-evaluate its job. -/
def writeTerminal (f : Task → Task) (keep : ∀ t, (f t).id = t.id) (db : Db) (taskId : TaskId)
    (now : Instant) : Db :=
  match db.tasks.get taskId with
  | none => db
  | some task => checkAndUpdateJobStatus { db with tasks := db.tasks.set taskId f keep } task.jobId now

def writeCompleteTask (db : Db) (taskId : TaskId) (status : TaskStatus) (now : Instant) : Db :=
  writeTerminal (completeRow status now) (completeRow_id status now) db taskId now

def writeFailTask (db : Db) (taskId : TaskId) (error : String) (category : ErrorCategory)
    (now : Instant) : Db :=
  writeTerminal (failRow error category now) (failRow_id error category now) db taskId now

def writeFailTaskWithDeactivation (db : Db) (taskId : TaskId) (domainId : DomainId)
    (error : String) (category : ErrorCategory) (errorCode : String) (now : Instant) : Db :=
  let failed := writeTerminal (failRow error category now) (failRow_id error category now) db taskId now
  if shouldSoftDeactivate category errorCode then deactivateDomain failed domainId now else failed

def writeRescheduleTask (maxAttempts : Nat) (db : Db) (taskId : TaskId) (error : String)
    (now : Instant) (draw : RetryDraw) : Db :=
  match db.tasks.get taskId with
  | none => db
  | some task =>
    let written := { db with
      tasks := db.tasks.set taskId (rescheduleRow maxAttempts error now draw)
        (rescheduleRow_id _ _ _ _) }
    if maxAttempts ≤ task.attempts then
      let evaluated := checkAndUpdateJobStatus written task.jobId now
      if shouldSoftDeactivate .transient "MAX_ATTEMPTS_EXCEEDED" then
        deactivateDomain evaluated task.domainId now
      else evaluated
    else written

section Frames

variable (db : Db)

@[simp] theorem checkAndUpdateJobStatus_tasks (jobId : Option JobId) (now : Instant) :
    (checkAndUpdateJobStatus db jobId now).tasks = db.tasks := by
  cases jobId <;> rfl

@[simp] theorem deactivateDomain_tasks (domainId : DomainId) (now : Instant) :
    (deactivateDomain db domainId now).tasks = db.tasks := rfl

@[simp] theorem deactivateDomain_jobs (domainId : DomainId) (now : Instant) :
    (deactivateDomain db domainId now).jobs = db.jobs := rfl

@[simp] theorem checkAndUpdateJobStatus_domains (jobId : Option JobId) (now : Instant) :
    (checkAndUpdateJobStatus db jobId now).domains = db.domains := by
  cases jobId <;> rfl

@[simp] theorem writeTerminal_domains (f : Task → Task) (keep : ∀ t, (f t).id = t.id)
    (taskId : TaskId) (now : Instant) : (writeTerminal f keep db taskId now).domains = db.domains := by
  unfold writeTerminal
  split <;> simp

@[simp] theorem checkAndUpdateJobStatus_details (jobId : Option JobId) (now : Instant) :
    (checkAndUpdateJobStatus db jobId now).details = db.details := by
  cases jobId <;> rfl

@[simp] theorem deactivateDomain_details (domainId : DomainId) (now : Instant) :
    (deactivateDomain db domainId now).details = db.details := rfl

@[simp] theorem writeTerminal_details (f : Task → Task) (keep : ∀ t, (f t).id = t.id)
    (taskId : TaskId) (now : Instant) : (writeTerminal f keep db taskId now).details = db.details := by
  unfold writeTerminal
  split <;> simp

theorem deactivateDomain_inactive {domainId : DomainId} (now : Instant)
    (known : (db.domains.get domainId).isSome) :
    ((deactivateDomain db domainId now).domains.get domainId).map Domain.isActive = some false := by
  obtain ⟨domain, hdomain⟩ := Option.isSome_iff_exists.mp known
  simp only [deactivateDomain, Table.get_set, if_true, hdomain, Option.map_some]
  split
  next => rfl
  next inactive => simpa using inactive

/-- A domain that is inactive after a deactivation was inactive or is the one
deactivated. -/
theorem inactive_of_deactivateDomain {domainId : DomainId} {now : Instant} {d : Domain}
    (hd : d ∈ (deactivateDomain db domainId now).domains.rows) (inactive : d.isActive = false) :
    d.id = domainId ∨ ∃ old ∈ db.domains.rows, old.id = d.id ∧ old.isActive = false := by
  obtain ⟨old, hold, rfl⟩ := List.mem_map.mp hd
  by_cases hk : old.id = domainId
  · left
    rw [if_pos hk]
    beta_reduce
    split <;> exact hk
  · rw [if_neg hk] at inactive ⊢
    exact Or.inr ⟨old, hold, rfl, inactive⟩

/-- A terminal write touches the task row it is given and the job of that row. -/
theorem writeTerminal_tasks (f : Task → Task) (keep : ∀ t, (f t).id = t.id) (taskId : TaskId)
    (now : Instant) :
    (writeTerminal f keep db taskId now).tasks = db.tasks.set taskId f keep := by
  unfold writeTerminal
  cases hg : db.tasks.get taskId with
  | some task => simp
  | none => simp [Table.set_absent f keep hg]

/-- The job rows after a terminal write of a task of job `jobId`. -/
def reevaluated (jobId : Option JobId) (tasks : List Task) (now : Instant) (job : Job) : Job :=
  if jobId = some job.id then evaluateJobStatus (nonTerminalCount tasks job.id) now job else job

@[simp] theorem reevaluated_none (tasks : List Task) (now : Instant) :
    reevaluated none tasks now = id := by
  funext job
  simp [reevaluated]

theorem checkAndUpdateJobStatus_jobs (jobId : Option JobId) (now : Instant) :
    (checkAndUpdateJobStatus db jobId now).jobs.rows =
      db.jobs.rows.map (reevaluated jobId db.tasks.rows now) := by
  cases jobId with
  | none => simp [checkAndUpdateJobStatus]
  | some j =>
    apply List.map_congr_left
    intro job _
    by_cases hj : job.id = j
    · subst hj
      simp [reevaluated]
    · simp [reevaluated, hj, Ne.symm hj]

theorem writeTerminal_jobs (f : Task → Task) (keep : ∀ t, (f t).id = t.id) (taskId : TaskId)
    (now : Instant) :
    (writeTerminal f keep db taskId now).jobs.rows = db.jobs.rows.map
      (reevaluated ((db.tasks.get taskId).bind Task.jobId) (db.tasks.set taskId f keep).rows now) := by
  unfold writeTerminal
  cases hg : db.tasks.get taskId with
  | some task => exact checkAndUpdateJobStatus_jobs _ _ _
  | none => simp

theorem writeFailTaskWithDeactivation_jobs (taskId : TaskId) (domainId : DomainId)
    (error : String) (category : ErrorCategory) (errorCode : String) (now : Instant) :
    (writeFailTaskWithDeactivation db taskId domainId error category errorCode now).jobs =
      (writeTerminal (failRow error category now) (failRow_id error category now) db taskId now).jobs := by
  unfold writeFailTaskWithDeactivation
  split <;> rfl

theorem writeFailTaskWithDeactivation_tasks (taskId : TaskId) (domainId : DomainId)
    (error : String) (category : ErrorCategory) (errorCode : String) (now : Instant) :
    (writeFailTaskWithDeactivation db taskId domainId error category errorCode now).tasks =
      db.tasks.set taskId (failRow error category now) (failRow_id error category now) := by
  unfold writeFailTaskWithDeactivation
  split <;> exact writeTerminal_tasks db _ _ taskId now

theorem writeRescheduleTask_tasks (maxAttempts : Nat) (taskId : TaskId) (error : String)
    (now : Instant) (draw : RetryDraw) :
    (writeRescheduleTask maxAttempts db taskId error now draw).tasks =
      db.tasks.set taskId (rescheduleRow maxAttempts error now draw) (rescheduleRow_id _ _ _ _) := by
  unfold writeRescheduleTask
  cases hg : db.tasks.get taskId with
  | none => simp [Table.set_absent _ _ hg]
  | some task =>
    simp only
    split
    · split <;> simp
    · rfl

/-- A retry leaves the domains alone. -/
theorem writeRescheduleTask_domains {maxAttempts : Nat} {taskId : TaskId} {row : Task} (error : String)
    (now : Instant) (draw : RetryDraw) (stored : db.tasks.get taskId = some row)
    (left : row.attempts < maxAttempts) :
    (writeRescheduleTask maxAttempts db taskId error now draw).domains = db.domains := by
  have more : ¬maxAttempts ≤ row.attempts := by omega
  simp only [writeRescheduleTask, stored, if_neg more]

/-- The end of the budget deactivates the domain of the stored row. -/
theorem writeRescheduleTask_inactive {maxAttempts : Nat} {taskId : TaskId} {row : Task} (error : String)
    (now : Instant) (draw : RetryDraw) (stored : db.tasks.get taskId = some row)
    (exhausted : maxAttempts ≤ row.attempts) (known : (db.domains.get row.domainId).isSome) :
    ((writeRescheduleTask maxAttempts db taskId error now draw).domains.get row.domainId).map
      Domain.isActive = some false := by
  have deactivates : shouldSoftDeactivate .transient "MAX_ATTEMPTS_EXCEEDED" = true := by decide
  simp only [writeRescheduleTask, stored, if_pos exhausted, if_pos deactivates]
  apply deactivateDomain_inactive
  rwa [checkAndUpdateJobStatus_domains]

@[simp] theorem writeFailTaskWithDeactivation_details (taskId : TaskId) (domainId : DomainId)
    (error : String) (category : ErrorCategory) (errorCode : String) (now : Instant) :
    (writeFailTaskWithDeactivation db taskId domainId error category errorCode now).details =
      db.details := by
  unfold writeFailTaskWithDeactivation
  split <;> simp

@[simp] theorem writeRescheduleTask_details (maxAttempts : Nat) (taskId : TaskId) (error : String)
    (now : Instant) (draw : RetryDraw) :
    (writeRescheduleTask maxAttempts db taskId error now draw).details = db.details := by
  unfold writeRescheduleTask
  split
  next => rfl
  next =>
    simp only
    split
    · split <;> simp
    · rfl

/-- The job `_write_reschedule_task` re-evaluates: none when it only retries. -/
def rescheduledJob (maxAttempts : Nat) (tasks : TaskTable) (taskId : TaskId) : Option JobId :=
  (tasks.get taskId).bind fun task => if maxAttempts ≤ task.attempts then task.jobId else none

theorem writeRescheduleTask_jobs (maxAttempts : Nat) (taskId : TaskId) (error : String)
    (now : Instant) (draw : RetryDraw) :
    (writeRescheduleTask maxAttempts db taskId error now draw).jobs.rows = db.jobs.rows.map
      (reevaluated (rescheduledJob maxAttempts db.tasks taskId)
        (writeRescheduleTask maxAttempts db taskId error now draw).tasks.rows now) := by
  rw [writeRescheduleTask_tasks]
  unfold writeRescheduleTask rescheduledJob
  cases hg : db.tasks.get taskId with
  | none => simp
  | some task =>
    by_cases hx : maxAttempts ≤ task.attempts
    · simp only [Option.bind_some, if_pos hx]
      split
      · exact checkAndUpdateJobStatus_jobs _ _ _
      · exact checkAndUpdateJobStatus_jobs _ _ _
    · simp [hx]

end Frames

end DomainProcessing
