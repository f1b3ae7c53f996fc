import DomainProcessing.Runs
import DomainProcessing.WriteHelpers
import DomainProcessing.Ingestion

namespace DomainProcessing

open Tables OrderedSelection Runs

/-- The three calls of `_write_fail_task_with_deactivation` in `process_task`. -/
inductive PermanentFailure
  | ssrfRejection
  | dnsPermanentFailure
  | httpPermanentFailure
  deriving DecidableEq, Repr

def PermanentFailure.category : PermanentFailure → ErrorCategory
  | .ssrfRejection => .security
  | .dnsPermanentFailure | .httpPermanentFailure => .permanent

def PermanentFailure.errorCode : PermanentFailure → String
  | .ssrfRejection => "SECURITY_REJECTION"
  | .dnsPermanentFailure => "DNS_PERMANENT_FAILURE"
  | .httpPermanentFailure => "HTTP_PERMANENT_FAILURE"

/-- One transaction of the service. The worker writes carry the statuses and
categories that `process_task` passes. -/
inductive ServiceOp
  | createJob (sub : Submission)
  | createRefreshTasks (uuid : DomainId → TaskId) (domainIds : List DomainId) (now : Instant)
  | claimTasks (limit : Int) (leaseExpiresAt : Instant) (taskTypes : Option (List TaskType))
      (now : Instant)
  | recoveryCycle (limit : Int) (now updatedAt : Instant) (draws : TaskId → RetryDraw)
  | writeCompleteTask (taskId : TaskId) (now : Instant)
  | writeFailTask (taskId : TaskId) (error : String) (now : Instant)
  | writeFailTaskWithDeactivation (taskId : TaskId) (domainId : DomainId) (error : String)
      (failure : PermanentFailure) (now : Instant)
  | writeRescheduleTask (taskId : TaskId) (error : String) (now : Instant) (draw : RetryDraw)

/-- The database with the history of the tasks that `claim_tasks` has returned. -/
structure ServiceState where
  db : Db
  claimed : List TaskId

def ServiceState.init : ServiceState := ⟨.empty, []⟩

def ServiceState.tasks (s : ServiceState) : List Task := s.db.tasks.rows

/-- A worker write needs a task that was handed out once; the worker may have
lost its lease long ago. -/
def serviceNext (maxAttempts : Nat) (s : ServiceState) : ServiceOp → Option ServiceState
  | .createJob sub => some { s with db := (createJob sub s.db).1 }
  | .createRefreshTasks uuid domainIds now =>
    some { s with db := { s.db with
      tasks := (createRefreshTasks uuid domainIds now s.db.tasks).getD s.db.tasks } }
  | .claimTasks limit leaseExpiresAt taskTypes now =>
    let result := claimTasks limit leaseExpiresAt taskTypes now s.db.tasks
    some ⟨{ s.db with tasks := result.1 }, result.2.map Task.id ++ s.claimed⟩
  | .recoveryCycle limit now updatedAt draws =>
    -- the domain deactivation of the cycle is flushed after the commit and then rolled back
    some { s with db := { s.db with
      tasks := (recoverExpiredTasks maxAttempts limit now updatedAt draws s.db.tasks).1 } }
  | .writeCompleteTask taskId now =>
    if taskId ∈ s.claimed then
      some { s with db := writeCompleteTask s.db taskId .completed now }
    else none
  | .writeFailTask taskId error now =>
    if taskId ∈ s.claimed then
      some { s with db := writeFailTask s.db taskId error .permanent now }
    else none
  | .writeFailTaskWithDeactivation taskId domainId error failure now =>
    if taskId ∈ s.claimed then
      some ⟨writeFailTaskWithDeactivation s.db taskId domainId error failure.category
        failure.errorCode now, s.claimed⟩
    else none
  | .writeRescheduleTask taskId error now draw =>
    if taskId ∈ s.claimed then
      some { s with db := writeRescheduleTask maxAttempts s.db taskId error now draw }
    else none

abbrev ServiceRun (maxAttempts : Nat) := Run (serviceNext maxAttempts)

/-- What an operation makes of a row that was there before. -/
def rowAfter (maxAttempts : Nat) (tasks : List Task) : ServiceOp → Task → Task
  | .createJob _, t | .createRefreshTasks _ _ _, t => t
  | .claimTasks limit leaseExpiresAt taskTypes now, t =>
    if t ∈ claimSelection limit taskTypes tasks then claimRow leaseExpiresAt now t else t
  | .recoveryCycle limit now updatedAt draws, t =>
    if t ∈ recoverySelection limit now tasks then
      recoverRow maxAttempts updatedAt (draws t.id) t
    else t
  | .writeCompleteTask taskId now, t =>
    if t.id = taskId then completeRow .completed now t else t
  | .writeFailTask taskId error now, t =>
    if t.id = taskId then failRow error .permanent now t else t
  | .writeFailTaskWithDeactivation taskId _ error failure now, t =>
    if t.id = taskId then failRow error failure.category now t else t
  | .writeRescheduleTask taskId error now draw, t =>
    if t.id = taskId then rescheduleRow maxAttempts error now draw t else t

variable {maxAttempts : Nat} {s s' : ServiceState} {op : ServiceOp}

@[simp] theorem rowAfter_createJob (tasks : List Task) (sub : Submission) :
    rowAfter maxAttempts tasks (.createJob sub) = id := rfl

@[simp] theorem rowAfter_createRefreshTasks (tasks : List Task) (uuid : DomainId → TaskId)
    (domainIds : List DomainId) (now : Instant) :
    rowAfter maxAttempts tasks (.createRefreshTasks uuid domainIds now) = id := rfl

theorem rowAfter_jobId (tasks : List Task) (op : ServiceOp) (t : Task) :
    (rowAfter maxAttempts tasks op t).jobId = t.jobId := by
  cases op <;> simp only [rowAfter] <;> (try split) <;> (try rfl)
  · unfold recoverRow
    split <;> rfl
  · unfold rescheduleRow
    split <;> rfl

theorem rowAfter_id (tasks : List Task) (op : ServiceOp) (t : Task) :
    (rowAfter maxAttempts tasks op t).id = t.id := by
  cases op <;> simp only [rowAfter] <;> (try split) <;>
    first | rfl | exact recoverRow_id _ _ _ _ | exact rescheduleRow_id _ _ _ _ _

/-- What a row is about never changes. -/
theorem rowAfter_subject (tasks : List Task) (op : ServiceOp) (t : Task) :
    (rowAfter maxAttempts tasks op t).domainId = t.domainId ∧
      (rowAfter maxAttempts tasks op t).type = t.type ∧
      (rowAfter maxAttempts tasks op t).createdAt = t.createdAt := by
  cases op with
  | createJob | createRefreshTasks => exact ⟨rfl, rfl, rfl⟩
  | recoveryCycle =>
    simp only [rowAfter]
    split
    · unfold recoverRow
      split <;> exact ⟨rfl, rfl, rfl⟩
    · exact ⟨rfl, rfl, rfl⟩
  | writeRescheduleTask =>
    simp only [rowAfter]
    split
    · unfold rescheduleRow
      split <;> exact ⟨rfl, rfl, rfl⟩
    · exact ⟨rfl, rfl, rfl⟩
  | claimTasks | writeCompleteTask | writeFailTask | writeFailTaskWithDeactivation =>
    simp only [rowAfter]
    split <;> exact ⟨rfl, rfl, rfl⟩

theorem rowAfter_completed {tasks : List Task} {op : ServiceOp} {t : Task}
    (h : (rowAfter maxAttempts tasks op t).status = .completed) :
    t.status = .completed ∨ ∃ now, op = .writeCompleteTask t.id now := by
  cases op with
  | createJob | createRefreshTasks => exact Or.inl h
  | writeCompleteTask taskId now =>
    simp only [rowAfter] at h
    split at h
    next same => exact Or.inr ⟨now, same ▸ rfl⟩
    next => exact Or.inl h
  | recoveryCycle =>
    simp only [rowAfter] at h
    split at h
    · unfold recoverRow at h
      split at h <;> cases h
    · exact Or.inl h
  | writeRescheduleTask =>
    simp only [rowAfter] at h
    split at h
    · unfold rescheduleRow at h
      split at h <;> cases h
    · exact Or.inl h
  | claimTasks | writeFailTask | writeFailTaskWithDeactivation =>
    simp only [rowAfter] at h
    split at h
    · cases h
    · exact Or.inl h

def claimedBy (tasks : List Task) : ServiceOp → List TaskId
  | .claimTasks limit _ taskTypes _ => (claimSelection limit taskTypes tasks).map Task.id
  | _ => []

/-- The job whose status an operation re-evaluates, and when. -/
def evaluatedJob (maxAttempts : Nat) (tasks : TaskTable) : ServiceOp → Option JobId × Instant
  | .writeCompleteTask taskId now | .writeFailTask taskId _ now
  | .writeFailTaskWithDeactivation taskId _ _ _ now => ((tasks.get taskId).bind Task.jobId, now)
  | .writeRescheduleTask taskId _ now _ => (rescheduledJob maxAttempts tasks taskId, now)
  | _ => (none, 0)

/-- The rows a transaction adds. -/
inductive Added (s : ServiceState) : ServiceOp → List Task → List Job → Prop
  | nothing {o : ServiceOp} : Added s o [] []
  | job {sub : Submission} {new : List Task} : sub.NewTasks new →
      (∀ job ∈ s.db.jobs.rows, job.id ≠ sub.jobUuid) →
      sub.scope.bind s.db.idempotencyRecords.get = none → Added s (.createJob sub) new [sub.jobRow]
  | refresh {uuid domainIds now} {new : List Task} :
      (∀ t ∈ new, ∃ id domainId, t = refreshTask id domainId now) →
      Added s (.createRefreshTasks uuid domainIds now) new []

/-- Everything one transaction does to the task and job tables: the old rows
are rewritten one by one and fresh ones are appended. -/
structure Effect (maxAttempts : Nat) (s s' : ServiceState) (op : ServiceOp) (new : List Task)
    (newJobs : List Job) : Prop where
  added : Added s op new newJobs
  unused : ∀ t ∈ new, s.db.tasks.get t.id = none
  tasks : s'.tasks = s.tasks.map (rowAfter maxAttempts s.tasks op) ++ new
  jobs : s'.db.jobs.rows = s.db.jobs.rows.map
    (reevaluated (evaluatedJob maxAttempts s.db.tasks op).1 s'.tasks
      (evaluatedJob maxAttempts s.db.tasks op).2) ++ newJobs
  claimed : s'.claimed = claimedBy s.tasks op ++ s.claimed

theorem refreshTasksFor_shape {uuid : DomainId → TaskId} {now : Instant} {domainIds : List DomainId}
    {seen created : List Task} (h : refreshTasksFor uuid now domainIds seen = some created)
    {t : Task} (ht : t ∈ created) : ∃ id domainId, t = refreshTask id domainId now := by
  induction domainIds generalizing seen created with
  | nil => cases Option.some.inj h; simp at ht
  | cons domainId rest ih =>
    unfold refreshTasksFor at h
    split at h
    next =>
      obtain ⟨more, hm, h⟩ := Option.bind_eq_some_iff.mp h
      cases Option.some.inj h
      rcases List.mem_cons.mp ht with rfl | ht
      · exact ⟨_, domainId, rfl⟩
      · exact ih hm ht
    next => exact ih h ht
    next => simp at h

theorem createJob_effect (sub : Submission) (s : ServiceState) :
    ∃ new newJobs, Effect maxAttempts s { s with db := (createJob sub s.db).1 } (.createJob sub)
      new newJobs := by
  rcases createJob_cases sub s.db with same | ⟨new, hnew, unused, _, hjobs, hins⟩
  · refine ⟨[], [], .nothing, by simp, ?_, ?_, rfl⟩
    · simp [ServiceState.tasks, same]
    · simp [evaluatedJob, same]
  · refine ⟨new, [sub.jobRow], Added.job hnew ?_ unused, fun t ht => Table.insert_fresh hins ht, ?_, ?_, rfl⟩
    · intro job hj (he : job.id = sub.jobRow.id)
      have free := Table.insert_fresh hjobs (List.mem_singleton_self sub.jobRow)
      exact Table.get_eq_none_iff.mp free (he ▸ List.mem_map_of_mem hj)
    · simp [ServiceState.tasks, Table.insert_rows hins]
    · simp [evaluatedJob, Table.insert_rows hjobs]

theorem createRefreshTasks_effect (uuid : DomainId → TaskId) (domainIds : List DomainId)
    (now : Instant) (s : ServiceState) :
    ∃ new newJobs, Effect maxAttempts s
      { s with db := { s.db with
        tasks := (createRefreshTasks uuid domainIds now s.db.tasks).getD s.db.tasks } }
      (.createRefreshTasks uuid domainIds now) new newJobs := by
  cases hc : createRefreshTasks uuid domainIds now s.db.tasks with
  | none =>
    refine ⟨[], [], .nothing, by simp, ?_, ?_, rfl⟩
    · simp [ServiceState.tasks]
    · simp [evaluatedJob]
  | some after =>
    obtain ⟨created, hcreated, hins⟩ := Option.bind_eq_some_iff.mp hc
    refine ⟨created, [], .refresh fun t ht => refreshTasksFor_shape hcreated ht,
      fun t ht => Table.insert_fresh hins ht, ?_, ?_, rfl⟩
    · simp [ServiceState.tasks, Table.insert_rows hins]
    · simp [evaluatedJob]

/-- An operation that only rewrites task rows. -/
theorem effect_of_rewrite {db : Db} {claimed : List TaskId}
    (tasks : db.tasks.rows = s.tasks.map (rowAfter maxAttempts s.tasks op))
    (jobs : db.jobs.rows = s.db.jobs.rows.map
      (reevaluated (evaluatedJob maxAttempts s.db.tasks op).1 db.tasks.rows
        (evaluatedJob maxAttempts s.db.tasks op).2))
    (hc : claimed = claimedBy s.tasks op ++ s.claimed) :
    ∃ new newJobs, Effect maxAttempts s ⟨db, claimed⟩ op new newJobs :=
  ⟨[], [], .nothing, by simp, by simpa [ServiceState.tasks] using tasks,
    by simpa [ServiceState.tasks] using jobs, hc⟩

theorem serviceNext_effect (h : serviceNext maxAttempts s op = some s') :
    ∃ new newJobs, Effect maxAttempts s s' op new newJobs := by
  cases op with
  | createJob sub =>
    cases Option.some.inj h
    exact createJob_effect sub s
  | createRefreshTasks uuid domainIds now =>
    cases Option.some.inj h
    exact createRefreshTasks_effect uuid domainIds now s
  | claimTasks limit leaseExpiresAt taskTypes now =>
    cases Option.some.inj h
    apply effect_of_rewrite rfl
    · simp [evaluatedJob]
    · simp [claimTasks, claimedBy, ServiceState.tasks, Function.comp_def, claimRow]
  | recoveryCycle limit now updatedAt draws =>
    cases Option.some.inj h
    refine effect_of_rewrite rfl ?_ rfl
    simp [evaluatedJob]
  | writeCompleteTask taskId now =>
    simp only [serviceNext, Option.ite_none_right_eq_some] at h
    cases Option.some.inj h.2
    refine effect_of_rewrite ?_ ?_ rfl
    · rw [writeCompleteTask, writeTerminal_tasks]
      rfl
    · rw [writeCompleteTask, writeTerminal_tasks]
      exact writeTerminal_jobs _ _ _ _ _
  | writeFailTask taskId error now =>
    simp only [serviceNext, Option.ite_none_right_eq_some] at h
    cases Option.some.inj h.2
    refine effect_of_rewrite ?_ ?_ rfl
    · rw [writeFailTask, writeTerminal_tasks]
      rfl
    · rw [writeFailTask, writeTerminal_tasks]
      exact writeTerminal_jobs _ _ _ _ _
  | writeFailTaskWithDeactivation taskId domainId error failure now =>
    simp only [serviceNext, Option.ite_none_right_eq_some] at h
    cases Option.some.inj h.2
    refine effect_of_rewrite ?_ ?_ rfl
    · rw [writeFailTaskWithDeactivation_tasks]
      rfl
    · rw [writeFailTaskWithDeactivation_tasks, writeFailTaskWithDeactivation_jobs]
      exact writeTerminal_jobs _ _ _ _ _
  | writeRescheduleTask taskId error now draw =>
    simp only [serviceNext, Option.ite_none_right_eq_some] at h
    cases Option.some.inj h.2
    refine effect_of_rewrite ?_ ?_ rfl
    · rw [writeRescheduleTask_tasks]
      rfl
    · exact writeRescheduleTask_jobs _ _ _ _ _ _

/-- Rows are never deleted, and a row keeps its id. -/
theorem serviceNext_row (h : serviceNext maxAttempts s op = some s') {t : Task} (ht : t ∈ s.tasks) :
    rowAfter maxAttempts s.tasks op t ∈ s'.tasks := by
  obtain ⟨new, newJobs, effect⟩ := serviceNext_effect h
  rw [effect.tasks]
  exact List.mem_append_left _ (List.mem_map_of_mem ht)

/-- Only ingestion touches the details, and it only deletes them. -/
theorem serviceNext_detail (h : serviceNext maxAttempts s op = some s') (domainId : DomainId) :
    s'.db.details.get domainId = s.db.details.get domainId ∨
      ∃ sub, op = .createJob sub ∧ s'.db.details.get domainId = none := by
  cases op with
  | createJob sub =>
    cases Option.some.inj h
    exact (createJob_detail sub s.db domainId).imp_right fun cleared => ⟨sub, rfl, cleared⟩
  | createRefreshTasks | claimTasks | recoveryCycle =>
    cases Option.some.inj h
    exact Or.inl rfl
  | writeCompleteTask | writeFailTask | writeFailTaskWithDeactivation | writeRescheduleTask =>
    simp only [serviceNext, Option.ite_none_right_eq_some] at h
    cases Option.some.inj h.2
    left
    simp [writeCompleteTask, writeFailTask]

def oneTaskSubmission : Submission := plainSubmission 1 [⟨"example.com", true, none⟩] []

/-- A job with one valid domain, claimed and completed. -/
def oneTaskOps : List ServiceOp :=
  [.createJob oneTaskSubmission, .claimTasks 1 120 none 0, .writeCompleteTask 1 5]

/-- Another job for the same domain, with the one task `10 * n`. -/
def laterSubmission (n : Nat) : Submission :=
  { oneTaskSubmission with jobUuid := n, recordUuid := n, taskUuid := fun k => k + 10 * n }

/-- One task, claimed, rescheduled and claimed again. -/
def retryOps : List ServiceOp :=
  [.createJob oneTaskSubmission, .claimTasks 1 120 none 0,
    .writeRescheduleTask 1 "timeout" 5 (.unjittered 5), .claimTasks 1 240 none 100]

end DomainProcessing
