import DomainProcessing.SsrfProtection

namespace DomainProcessing

open Tables OrderedSelection

/-- A session: what is committed, and what its open transaction has made of it. -/
structure Session where
  committed : Db
  current : Db

namespace Session

def start (db : Db) : Session := ⟨db, db⟩

/-- Changes that are flushed, in the open transaction. -/
def flush (s : Session) (change : Db → Db) : Session := { s with current := change s.current }

def commit (s : Session) : Session := { s with committed := s.current }

/-- Closing rolls back what was not committed. -/
def close (s : Session) : Db := s.committed

end Session

/-- `_maybe_deactivate_domain` -/
def maybeDeactivateDomain (session : Session) (task : Task) (now : Instant) : Session :=
  if task.errorPayload.map ErrorPayload.code ≠ some "MAX_ATTEMPTS_EXCEEDED" then session
  else session.flush fun db => deactivateDomain db task.domainId now

/-- The loop over the recovered tasks; those that are PENDING go to the queue. -/
def redispatch (clock : TaskId → Instant) : List Task → Session → Session
  | [], session => session
  | task :: rest, session =>
    if task.status = .pending then redispatch clock rest session
    else redispatch clock rest (maybeDeactivateDomain session task (clock task.id))

/-- `_recovery_cycle`, from the begin of its session to the close. -/
def recoveryCycle (maxAttempts : Nat) (limit : Int) (now updatedAt : Instant)
    (draws : TaskId → RetryDraw) (clock : TaskId → Instant) (db : Db) : Db :=
  let result := recoverExpiredTasks maxAttempts limit now updatedAt draws db.tasks
  let recovered := (Session.start db).flush fun db => { db with tasks := result.1 }
  (redispatch clock result.2 recovered.commit).close

theorem redispatch_close (clock : TaskId → Instant) (tasks : List Task) (session : Session) :
    (redispatch clock tasks session).close = session.close := by
  induction tasks generalizing session with
  | nil => rfl
  | cons task rest ih =>
    unfold redispatch
    split
    · exact ih session
    · rw [ih]
      unfold maybeDeactivateDomain
      split <;> rfl

/-- Of a whole cycle only the task rows are committed. -/
theorem recoveryCycle_eq (maxAttempts : Nat) (limit : Int) (now updatedAt : Instant)
    (draws : TaskId → RetryDraw) (clock : TaskId → Instant) (db : Db) :
    recoveryCycle maxAttempts limit now updatedAt draws clock db = { db with
      tasks := (recoverExpiredTasks maxAttempts limit now updatedAt draws db.tasks).1 } := by
  unfold recoveryCycle
  rw [redispatch_close]
  rfl

def Job.untimed (j : Job) : JobId × TaskStatus := (j.id, j.status)

def Domain.untimed (d : Domain) : DomainId × String × Bool × Bool :=
  (d.id, d.normalizedDomain, d.isActive, d.deactivatedAt.isSome)

def ErrorPayload.unworded (p : ErrorPayload) : String × Bool := (p.code, p.retryable)

def Task.untimed (t : Task) : Task × Option (String × Bool) :=
  ({ t with createdAt := 0, updatedAt := 0, errorPayload := none }, t.errorPayload.map ErrorPayload.unworded)

/-- Two databases are the same up to timestamps and messages; the tasks of
`others` are not compared. -/
structure SameUntimed (others : TaskId → Prop) (one two : Db) : Prop where
  tasks : ∀ id, ¬others id → (one.tasks.get id).map Task.untimed = (two.tasks.get id).map Task.untimed
  jobs : one.jobs.rows.map Job.untimed = two.jobs.rows.map Job.untimed
  domains : one.domains.rows.map Domain.untimed = two.domains.rows.map Domain.untimed
  details : one.details = two.details
  idempotencyRecords : one.idempotencyRecords = two.idempotencyRecords

/-- Among some tasks there is an open one of the job, other than `t`. -/
def OtherOpen (tasks : List Task) (t : Task) (jobId : JobId) : Prop :=
  ∃ u ∈ tasks, u.id ≠ t.id ∧ u.jobId = some jobId ∧ u.status.isOpen = true

/-- The domain of a task is inactive since a recorded instant. -/
def DomainRetired (db : Db) (t : Task) : Prop :=
  ∀ d, db.domains.get t.domainId = some d → d.isActive = false ∧ d.deactivatedAt.isSome = true

/-- The status of a task's job is the one that a re-evaluation over `tasks` gives. -/
def JobEvaluated (tasks : List Task) (db : Db) (t : Task) : Prop :=
  ∀ jobId job, t.jobId = some jobId → db.jobs.get jobId = some job →
    (¬OtherOpen tasks t jobId → job.status = .completed) ∧ (OtherOpen tasks t jobId → job.status ≠ .pending)

/-- What the end of a task's budget leaves behind. -/
structure ExhaustedState (after : Db) (t : Task) : Prop where
  task : ∃ row, after.tasks.get t.id = some row ∧ row.status = .failed ∧ row.leaseExpiresAt = none ∧
    row.errorPayload.map ErrorPayload.code = some "MAX_ATTEMPTS_EXCEEDED"
  domain : DomainRetired after t
  job : JobEvaluated after.tasks.rows after t

/-- The tasks that a recovery batch does not close. -/
def leftOpen (maxAttempts : Nat) (batch tasks : List Task) : List Task :=
  tasks.filter fun u => decide (¬(u ∈ batch ∧ maxAttempts ≤ u.attempts))

section Recovery

variable {maxAttempts : Nat} {limit : Int} {now updatedAt : Instant} {draws : TaskId → RetryDraw}
  {clock : TaskId → Instant} {db : Db} {t : Task} {jobId : JobId}

/-- Both paths write the same row, apart from its message and timestamps. -/
theorem recoverRow_rescheduleRow (exhausted : maxAttempts ≤ t.attempts) (draw draw' : RetryDraw)
    (error : String) : (recoverRow maxAttempts updatedAt draw t).untimed =
      (rescheduleRow maxAttempts error now draw' t).untimed := by
  rw [recoverRow, rescheduleRow, if_pos exhausted, if_pos exhausted]
  rfl

theorem recoverExpiredTasks_get (id : TaskId) :
    (recoverExpiredTasks maxAttempts limit now updatedAt draws db.tasks).1.get id =
      (db.tasks.get id).map fun row =>
        if row ∈ recoverySelection limit now db.tasks.rows then
          recoverRow maxAttempts updatedAt (draws row.id) row
        else row := by
  simp only [recoverExpiredTasks, Table.get_update]

theorem recoverRow_isOpen_iff {u : Task} {draw : RetryDraw} :
    (recoverRow maxAttempts updatedAt draw u).status.isOpen = true ↔ ¬maxAttempts ≤ u.attempts := by
  unfold recoverRow
  split
  next exhausted => simpa [TaskStatus.isOpen] using exhausted
  next left => simpa [TaskStatus.isOpen] using left

theorem recoverRow_jobId (draw : RetryDraw) (u : Task) :
    (recoverRow maxAttempts updatedAt draw u).jobId = u.jobId := by
  unfold recoverRow
  split <;> rfl

/-- After the cycle the open tasks are those that its batch did not close. -/
theorem otherOpen_recovered :
    OtherOpen (recoverExpiredTasks maxAttempts limit now updatedAt draws db.tasks).1.rows t jobId ↔
      OtherOpen (leftOpen maxAttempts (recoverySelection limit now db.tasks.rows) db.tasks.rows) t jobId := by
  unfold OtherOpen leftOpen recoverExpiredTasks
  simp only [Table.update, List.mem_map, exists_exists_and_eq_and, List.mem_filter, decide_eq_true_eq]
  refine exists_congr fun u => ?_
  by_cases selected : u ∈ recoverySelection limit now db.tasks.rows
  · have processing := leaseExpired_processing (mem_recoverySelection selected).2
    rw [if_pos selected, recoverRow_id, recoverRow_jobId, recoverRow_isOpen_iff]
    simp only [selected, processing, TaskStatus.isOpen, true_and]
    tauto
  · simp [selected]

theorem nonTerminalCount_exhausted {error : String} {draw : RetryDraw} (stored : db.tasks.get t.id = some t)
    (exhausted : maxAttempts ≤ t.attempts) :
    nonTerminalCount (db.tasks.set t.id (rescheduleRow maxAttempts error now draw)
      (rescheduleRow_id _ _ _ _)).rows jobId = 0 ↔ ¬OtherOpen db.tasks.rows t jobId := by
  rw [nonTerminalCount_eq_zero_iff]
  constructor
  · rintro closed ⟨u, hu, other, job, isOpen⟩
    have kept : u ∈ (db.tasks.set t.id (rescheduleRow maxAttempts error now draw)
        (rescheduleRow_id _ _ _ _)).rows := Table.mem_set.mpr ⟨u, hu, if_neg other⟩
    rw [closed u kept job] at isOpen
    cases isOpen
  · intro none_open row hrow job
    obtain ⟨u, hu, rfl⟩ := Table.mem_set.mp hrow
    by_cases same : u.id = t.id
    · have stays := Table.eq_of_key hu (Table.get_eq_some_iff.mp stored).1 same
      rw [if_pos same, stays, rescheduleRow, if_pos exhausted]
      rfl
    · rw [if_neg same] at job ⊢
      by_contra isOpen
      exact none_open ⟨u, hu, same, job, by simpa using isOpen⟩

/-- A re-evaluation changes no status when the job already has the one it gives. -/
theorem reevaluated_untimed {tasks : List Task} {job : Job} (now : Instant)
    (completed : t.jobId = some job.id → nonTerminalCount tasks job.id = 0 → job.status = .completed)
    (started : t.jobId = some job.id → nonTerminalCount tasks job.id ≠ 0 → job.status ≠ .pending) :
    (reevaluated t.jobId tasks now job).untimed = job.untimed := by
  unfold reevaluated
  split
  next mine =>
    unfold evaluateJobStatus
    by_cases none_open : nonTerminalCount tasks job.id = 0
    · rw [if_pos none_open, if_neg (not_not.mpr (completed mine none_open))]
    · rw [if_neg none_open, if_neg (started mine none_open)]
  next => rfl

theorem writeRescheduleTask_idempotencyRecords (error : String) (draw : RetryDraw) (taskId : TaskId) :
    (writeRescheduleTask maxAttempts db taskId error now draw).idempotencyRecords = db.idempotencyRecords := by
  unfold writeRescheduleTask checkAndUpdateJobStatus deactivateDomain
  repeat' split
  all_goals rfl

/-- The end of a budget leaves the domains as they are when its own is retired. -/
theorem writeRescheduleTask_domains_retired {error : String} {draw : RetryDraw}
    (stored : db.tasks.get t.id = some t) (retired : DomainRetired db t) :
    (writeRescheduleTask maxAttempts db t.id error now draw).domains = db.domains := by
  by_cases exhausted : maxAttempts ≤ t.attempts
  · have deactivates : shouldSoftDeactivate .transient "MAX_ATTEMPTS_EXCEEDED" = true := by decide
    simp only [writeRescheduleTask, stored, if_pos exhausted, if_pos deactivates]
    apply Table.ext
    simp only [deactivateDomain, Table.set, Table.update, checkAndUpdateJobStatus_domains]
    refine (List.map_congr_left fun d hd => ?_).trans (List.map_id _)
    by_cases mine : d.id = t.domainId
    · have inactive := (retired d (Table.get_eq_some_iff.mpr ⟨hd, mine⟩)).1
      rw [if_pos mine, inactive]
      rfl
    · rw [if_neg mine]
      rfl
  · exact writeRescheduleTask_domains db _ _ _ stored (by omega)

theorem otherOpen_of_left {batch tasks : List Task} (h : OtherOpen (leftOpen maxAttempts batch tasks) t jobId) :
    OtherOpen tasks t jobId := by
  obtain ⟨u, hu, rest⟩ := h
  exact ⟨u, (List.mem_filter.mp hu).1, rest⟩

/-- A job that is right without the tasks that are closed is right with them. -/
theorem JobEvaluated.of_left {batch tasks : List Task} (h : JobEvaluated (leftOpen maxAttempts batch tasks) db t) :
    JobEvaluated tasks db t := by
  intro jobId job mine hj
  obtain ⟨completed, started⟩ := h jobId job mine hj
  refine ⟨?_, ?_⟩
  · intro none_open
    exact completed fun left => none_open (otherOpen_of_left left)
  · intro _
    by_cases left : OtherOpen (leftOpen maxAttempts batch tasks) t jobId
    · exact started left
    · rw [completed left]
      decide

theorem writeRescheduleTask_jobs_untimed {error : String} {draw : RetryDraw}
    (stored : db.tasks.get t.id = some t) (exhausted : maxAttempts ≤ t.attempts)
    (evaluated : JobEvaluated db.tasks.rows db t) :
    (writeRescheduleTask maxAttempts db t.id error now draw).jobs.rows.map Job.untimed =
      db.jobs.rows.map Job.untimed := by
  have mine : rescheduledJob maxAttempts db.tasks t.id = t.jobId := by
    rw [rescheduledJob, stored, Option.bind_some, if_pos exhausted]
  rw [writeRescheduleTask_jobs, mine, writeRescheduleTask_tasks, List.map_map]
  refine List.map_congr_left fun job hj => ?_
  have hg : db.jobs.get job.id = some job := Table.get_eq_some_iff.mpr ⟨hj, rfl⟩
  apply reevaluated_untimed
  · intro own none_open
    exact (evaluated job.id job own hg).1 ((nonTerminalCount_exhausted stored exhausted).mp none_open)
  · intro own some_open
    refine (evaluated job.id job own hg).2 (not_not.mp fun closed => some_open ?_)
    exact (nonTerminalCount_exhausted stored exhausted).mpr closed

/-- The two ways to the end of a budget commit the same exactly when there is
nothing to do for the domain and the job. -/
theorem exhaustion_paths_agree_iff (selected : t ∈ recoverySelection limit now db.tasks.rows)
    (exhausted : maxAttempts ≤ t.attempts) (error : String) (now' : Instant) (draw : RetryDraw) :
    let recovered := recoveryCycle maxAttempts limit now updatedAt draws clock db
    (SameUntimed (fun id => id ≠ t.id ∧ id ∈ (recoverySelection limit now db.tasks.rows).map Task.id)
        recovered (writeRescheduleTask maxAttempts db t.id error now' draw) ∧
      ExhaustedState recovered t) ↔
    DomainRetired db t ∧
      JobEvaluated (leftOpen maxAttempts (recoverySelection limit now db.tasks.rows) db.tasks.rows) db t := by
  have member := (mem_recoverySelection selected).1
  have stored : db.tasks.get t.id = some t := Table.get_eq_some_iff.mpr ⟨member, rfl⟩
  intro recovered
  have committed : recovered = { db with
      tasks := (recoverExpiredTasks maxAttempts limit now updatedAt draws db.tasks).1 } := recoveryCycle_eq ..
  have evaluated : JobEvaluated recovered.tasks.rows recovered t ↔
      JobEvaluated (leftOpen maxAttempts (recoverySelection limit now db.tasks.rows) db.tasks.rows) db t := by
    rw [committed]
    unfold JobEvaluated
    simp only [otherOpen_recovered]
  constructor
  · rintro ⟨_, state⟩
    have retired := state.domain
    rw [committed] at retired
    exact ⟨retired, evaluated.mp state.job⟩
  · rintro ⟨retired, job⟩
    refine ⟨?_, ?_⟩
    · constructor
      case tasks =>
        intro id compared
        rw [committed, recoverExpiredTasks_get, writeRescheduleTask_tasks, Table.get_set]
        by_cases mine : id = t.id
        · rw [if_pos mine, mine, stored]
          simp only [Option.map_some, if_pos selected]
          exact congrArg some (recoverRow_rescheduleRow exhausted _ _ _)
        · rw [if_neg mine]
          cases hg : db.tasks.get id with
          | none => rfl
          | some row =>
            have same := (Table.get_eq_some_iff.mp hg).2
            have unselected : row ∉ recoverySelection limit now db.tasks.rows := by
              intro hrow
              exact compared ⟨mine, List.mem_map.mpr ⟨row, hrow, same⟩⟩
            simp only [Option.map_some, if_neg unselected]
      case jobs =>
        rw [committed]
        exact (writeRescheduleTask_jobs_untimed stored exhausted job.of_left).symm
      case domains => rw [committed, writeRescheduleTask_domains_retired stored retired]
      case details => rw [committed, writeRescheduleTask_details]
      case idempotencyRecords => rw [committed, writeRescheduleTask_idempotencyRecords]
    · constructor
      case task =>
        refine ⟨recoverRow maxAttempts updatedAt (draws t.id) t, ?_, ?_⟩
        · rw [committed, recoverExpiredTasks_get, stored, Option.map_some, if_pos selected]
        · rw [recoverRow, if_pos exhausted]
          exact ⟨rfl, rfl, rfl⟩
      case domain => rwa [committed]
      case job => exact evaluated.mpr job

end Recovery

/-- A worker died with the last attempt of a job's only task. -/
theorem exhaustion_paths_dead_worker :
    let recovered := recoveryCycle 1 10 121 121 (fun _ => .unjittered 121) (fun _ => 122) claimedDb
    let rescheduled := writeRescheduleTask 1 claimedDb 1 "Lock contention" 121 (.unjittered 121)
    claimedTask ∈ recoverySelection 10 121 claimedDb.tasks.rows ∧ 1 ≤ claimedTask.attempts ∧
      (recovered.tasks.get 1).map Task.untimed = (rescheduled.tasks.get 1).map Task.untimed ∧
      recovered.domains.rows.map Domain.untimed = [(11, "a.example", true, false)] ∧
      rescheduled.domains.rows.map Domain.untimed = [(11, "a.example", false, true)] ∧
      recovered.jobs.rows.map Job.untimed = [(7, .processing)] ∧
      rescheduled.jobs.rows.map Job.untimed = [(7, .completed)] := by
  decide +kernel

/-- A refresh task on its last attempt, after its domain was deactivated. -/
def retiredTask : Task := { claimedTask with jobId := none, type := .refresh }

def retiredTaskDb : Db :=
  { claimedDb with
    domains := ⟨[⟨11, "a.example", false, some 100, 0, 100⟩], by decide⟩
    tasks := ⟨[retiredTask], by decide⟩ }

theorem exhaustion_paths_retired :
    ExhaustedState (recoveryCycle 1 10 121 121 (fun _ => .unjittered 121) (fun _ => 122) retiredTaskDb)
      retiredTask := by
  have selected : retiredTask ∈ recoverySelection 10 121 retiredTaskDb.tasks.rows := by decide +kernel
  have domains : retiredTaskDb.domains.get 11 = some ⟨11, "a.example", false, some 100, 0, 100⟩ := rfl
  refine ((exhaustion_paths_agree_iff selected (by decide) "Lock contention" 121 (.unjittered 121)).mpr
    ⟨?_, ?_⟩).2
  · intro d hd
    cases Option.some.inj (domains.symm.trans hd)
    exact ⟨rfl, rfl⟩
  · intro jobId job mine
    cases mine

end DomainProcessing
