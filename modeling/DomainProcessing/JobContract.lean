import DomainProcessing.ServiceRuns

namespace DomainProcessing

open Tables OrderedSelection Runs

/-- A job with tasks is completed exactly when each of them is terminal. -/
def JobStatusContract (s : ServiceState) : Prop :=
  ∀ job ∈ s.db.jobs.rows, (∃ t ∈ s.tasks, t.jobId = some job.id) →
    (job.status = .completed ↔ ∀ t ∈ s.tasks, t.jobId = some job.id →
      t.status = .completed ∨ t.status = .failed)

instance (s : ServiceState) : Decidable (JobStatusContract s) :=
  inferInstanceAs (Decidable (∀ job ∈ s.db.jobs.rows, (∃ t ∈ s.tasks, t.jobId = some job.id) →
    (job.status = .completed ↔ ∀ t ∈ s.tasks, t.jobId = some job.id →
      t.status = .completed ∨ t.status = .failed)))

/-- A completed job has no open task. -/
def JobsClosed (s : ServiceState) : Prop :=
  ∀ job ∈ s.db.jobs.rows, job.status = .completed →
    ∀ t ∈ s.tasks, t.jobId = some job.id → t.status.isOpen = false

/-- A job with tasks that is not completed has an open one. -/
def JobsOpen (s : ServiceState) : Prop :=
  ∀ job ∈ s.db.jobs.rows, job.status ≠ .completed → (∃ t ∈ s.tasks, t.jobId = some job.id) →
    ∃ t ∈ s.tasks, t.jobId = some job.id ∧ t.status.isOpen = true

/-- A recovery batch leaves every job with an open task one that it does not
exhaust. -/
def RecoveryLeavesOpen (maxAttempts : Nat) (limit : Int) (now : Instant) (tasks : List Task) :
    Prop :=
  ∀ t ∈ tasks, t.status.isOpen = true → ∀ j, t.jobId = some j →
    ∃ u ∈ tasks, u.jobId = some j ∧ u.status.isOpen = true ∧
      ¬(u ∈ recoverySelection limit now tasks ∧ maxAttempts ≤ u.attempts)

/-- The condition on a transaction under which it keeps the job contract. -/
def KeepsJobContract (maxAttempts : Nat) (s : ServiceState) : ServiceOp → Prop
  | .createJob sub =>
    sub.finalValidDomains ≠ [] ∨ (sub.scope.bind s.db.idempotencyRecords.get).isSome
  | .recoveryCycle limit now _ _ => RecoveryLeavesOpen maxAttempts limit now s.tasks
  | .writeRescheduleTask taskId _ _ _ =>
    ∀ t ∈ s.tasks, t.id = taskId → t.attempts < maxAttempts →
      ∀ job ∈ s.db.jobs.rows, t.jobId = some job.id → job.status ≠ .completed
  | _ => True

variable {maxAttempts : Nat} {s s' : ServiceState} {op : ServiceOp} {t : Task} {new : List Task}
  {newJobs : List Job}

theorem Added.not_of_old_job (h : Added s op new newJobs) (ht : t ∈ new) {job : Job}
    (hj : job ∈ s.db.jobs.rows) : t.jobId ≠ some job.id := by
  cases h with
  | nothing => simp at ht
  | job hnew unused =>
    rw [hnew.job t ht]
    exact fun he => unused job hj (Option.some.inj he).symm
  | refresh shape =>
    obtain ⟨id, domainId, rfl⟩ := shape t ht
    simp [refreshTask]

theorem Added.job_pending (h : Added s op new newJobs) {job : Job} (hj : job ∈ newJobs) :
    job.status = .pending := by
  cases h with
  | nothing => simp at hj
  | job =>
    rw [List.mem_singleton.mp hj]
    rfl
  | refresh => simp at hj

/-- A task of an old job comes from a task of that job. -/
theorem Effect.old_task (effect : Effect maxAttempts s s' op new newJobs) {job : Job}
    (hj : job ∈ s.db.jobs.rows) (ht : t ∈ s'.tasks) (hjob : t.jobId = some job.id) :
    ∃ old ∈ s.tasks, rowAfter maxAttempts s.tasks op old = t ∧ old.jobId = some job.id := by
  rw [effect.tasks] at ht
  rcases List.mem_append.mp ht with ho | hn
  · obtain ⟨old, hold, rfl⟩ := List.mem_map.mp ho
    exact ⟨old, hold, rfl, by rwa [rowAfter_jobId] at hjob⟩
  · exact absurd hjob (effect.added.not_of_old_job hn hj)

theorem reevaluated_id (jobId : Option JobId) (tasks : List Task) (now : Instant) (job : Job) :
    (reevaluated jobId tasks now job).id = job.id := by
  unfold reevaluated
  split
  · exact evaluateJobStatus_id _ _ _
  · rfl

theorem reevaluated_completed_iff (jobId : Option JobId) (tasks : List Task) (now : Instant)
    (job : Job) : (reevaluated jobId tasks now job).status = .completed ↔
      (jobId = some job.id ∧ nonTerminalCount tasks job.id = 0) ∨ job.status = .completed := by
  unfold reevaluated
  split
  next h => rw [evaluateJobStatus_completed_iff]; simp [h]
  next h => simp [h]

theorem jobsClosed_step (effect : Effect maxAttempts s s' op new newJobs) (closed : JobsClosed s)
    (keep : ∀ job ∈ s.db.jobs.rows, job.status = .completed → ∀ t ∈ s.tasks,
      t.jobId = some job.id → t.status.isOpen = false →
      (rowAfter maxAttempts s.tasks op t).status.isOpen = false) : JobsClosed s' := by
  intro job' hj hc t ht hjob
  rw [effect.jobs] at hj
  rcases List.mem_append.mp hj with ho | hn
  · obtain ⟨job, hold, rfl⟩ := List.mem_map.mp ho
    rw [reevaluated_id] at hjob
    rcases (reevaluated_completed_iff _ _ _ _).mp hc with ⟨_, hz⟩ | hb
    · exact nonTerminalCount_eq_zero_iff.mp hz t ht hjob
    · obtain ⟨old, hot, rfl, hoj⟩ := effect.old_task hold ht hjob
      exact keep job hold hb old hot hoj (closed job hold hb old hot hoj)
  · rw [effect.added.job_pending hn] at hc
    cases hc

/-- Claims and recoveries leave a terminal row alone; the worker writes leave it
terminal unless they reschedule it. -/
theorem rowAfter_terminal (ht : t.status.isOpen = false)
    (retry : ∀ taskId error now draw, op = .writeRescheduleTask taskId error now draw →
      t.id = taskId → maxAttempts ≤ t.attempts) :
    (rowAfter maxAttempts s.tasks op t).status.isOpen = false := by
  cases op with
  | createJob | createRefreshTasks => exact ht
  | claimTasks =>
    simp only [rowAfter]
    split
    next hm => simp [(mem_claimSelection hm).2, TaskStatus.isOpen] at ht
    next => exact ht
  | recoveryCycle =>
    simp only [rowAfter]
    split
    next hm =>
      simp [leaseExpired_processing (mem_recoverySelection hm).2, TaskStatus.isOpen] at ht
    next => exact ht
  | writeCompleteTask | writeFailTask | writeFailTaskWithDeactivation =>
    simp only [rowAfter]
    split
    · rfl
    · exact ht
  | writeRescheduleTask taskId error now draw =>
    simp only [rowAfter]
    split
    next hk =>
      rw [rescheduleRow, if_pos (retry _ _ _ _ rfl hk)]
      rfl
    next => exact ht

/-- Outside the recovery batch an open row stays open, unless its own job is
re-evaluated. -/
theorem rowAfter_open (ht : t ∈ s.tasks) (ho : t.status.isOpen = true)
    (left : ∀ limit now updatedAt draws, op = .recoveryCycle limit now updatedAt draws →
      ¬(t ∈ recoverySelection limit now s.tasks ∧ maxAttempts ≤ t.attempts))
    (unseen : (evaluatedJob maxAttempts s.db.tasks op).1 ≠ t.jobId) :
    (rowAfter maxAttempts s.tasks op t).status.isOpen = true := by
  have found : s.db.tasks.get t.id = some t := Table.get_eq_some_iff.mpr ⟨ht, rfl⟩
  cases op with
  | createJob | createRefreshTasks => exact ho
  | claimTasks =>
    simp only [rowAfter]
    split
    · rfl
    · exact ho
  | recoveryCycle limit now updatedAt draws =>
    simp only [rowAfter]
    split
    next hm =>
      have budget : ¬maxAttempts ≤ t.attempts := fun hx => left _ _ _ _ rfl ⟨hm, hx⟩
      rw [recoverRow, if_neg budget]
      rfl
    next => exact ho
  | writeCompleteTask taskId | writeFailTask taskId | writeFailTaskWithDeactivation taskId =>
    simp only [rowAfter]
    split
    next hk =>
      subst hk
      simp [evaluatedJob, found] at unseen
    next => exact ho
  | writeRescheduleTask taskId error now draw =>
    simp only [rowAfter]
    split
    next hk =>
      subst hk
      have budget : ¬maxAttempts ≤ t.attempts := by
        intro hx
        simp [evaluatedJob, rescheduledJob, found, hx] at unseen
      rw [rescheduleRow, if_neg budget]
      rfl
    next => exact ho

theorem jobsOpen_step (effect : Effect maxAttempts s s' op new newJobs) (jobsOpen : JobsOpen s)
    (guard : KeepsJobContract maxAttempts s op) : JobsOpen s' := by
  intro job' hj hc ⟨t, ht, hjob⟩
  rw [effect.jobs] at hj
  rcases List.mem_append.mp hj with ho | hn
  · obtain ⟨job, hold, rfl⟩ := List.mem_map.mp ho
    rw [reevaluated_id] at hjob ⊢
    rw [ne_eq, reevaluated_completed_iff, not_or] at hc
    obtain ⟨counted, before⟩ := hc
    by_cases seen : (evaluatedJob maxAttempts s.db.tasks op).1 = some job.id
    · have hpos : nonTerminalCount s'.tasks job.id ≠ 0 := fun hz => counted ⟨seen, hz⟩
      rw [ne_eq, nonTerminalCount_eq_zero_iff] at hpos
      push Not at hpos
      simpa using hpos
    · obtain ⟨old, hot, _, hoj⟩ := effect.old_task hold ht hjob
      obtain ⟨u, hu, huj, huo⟩ := jobsOpen job hold before ⟨old, hot, hoj⟩
      have chosen : ∃ v ∈ s.tasks, v.jobId = some job.id ∧ v.status.isOpen = true ∧
          ∀ limit now updatedAt draws, op = .recoveryCycle limit now updatedAt draws →
            ¬(v ∈ recoverySelection limit now s.tasks ∧ maxAttempts ≤ v.attempts) := by
        cases op with
        | recoveryCycle limit now updatedAt draws =>
          obtain ⟨v, hv, hvj, hvo, hleft⟩ := guard u hu huo job.id huj
          refine ⟨v, hv, hvj, hvo, ?_⟩
          intro _ _ _ _ he
          cases he
          exact hleft
        | _ => exact ⟨u, hu, huj, huo, fun _ _ _ _ he => nomatch he⟩
      obtain ⟨v, hv, hvj, hvo, hleft⟩ := chosen
      refine ⟨rowAfter maxAttempts s.tasks op v, ?_, by rw [rowAfter_jobId, hvj], ?_⟩
      · rw [effect.tasks]
        exact List.mem_append_left _ (List.mem_map_of_mem hv)
      · exact rowAfter_open hv hvo hleft (by rwa [hvj])
  · have created := effect.added
    cases created with
    | job hnew _ unused =>
      have valid := guard.resolve_right (by simp [unused])
      obtain ⟨u, hu, hp⟩ := hnew.openTask valid
      refine ⟨u, by rw [effect.tasks]; exact List.mem_append_right _ hu, ?_, by simp [hp, TaskStatus.isOpen]⟩
      rw [List.mem_singleton.mp hn]
      exact hnew.job u hu
    | nothing | refresh => simp at hn

theorem jobContract_step (inv : JobsClosed s ∧ JobsOpen s) (guard : KeepsJobContract maxAttempts s op)
    (h : serviceNext maxAttempts s op = some s') : JobsClosed s' ∧ JobsOpen s' := by
  obtain ⟨new, newJobs, effect⟩ := serviceNext_effect h
  refine ⟨jobsClosed_step effect inv.1 ?_, jobsOpen_step effect inv.2 guard⟩
  intro job hj hc t ht hjob hterminal
  apply rowAfter_terminal hterminal
  rintro taskId error now draw rfl hk
  by_contra budget
  exact guard t ht hk (by omega) job hj hjob hc

theorem jobStatusContract_iff : JobStatusContract s ↔ JobsClosed s ∧ JobsOpen s := by
  have terminal_iff : ∀ t : Task,
      t.status = .completed ∨ t.status = .failed ↔ t.status.isOpen = false := by
    intro t
    cases t.status <;> simp [TaskStatus.isOpen]
  constructor
  · intro contract
    constructor
    · intro job hj hc t ht hjob
      exact (terminal_iff t).mp ((contract job hj ⟨t, ht, hjob⟩).mp hc t ht hjob)
    · intro job hj hc hasTask
      have some_open := mt (contract job hj hasTask).mpr hc
      push Not at some_open
      obtain ⟨t, ht, hjob, hs⟩ := some_open
      refine ⟨t, ht, hjob, ?_⟩
      rw [← Bool.not_eq_false, ← terminal_iff t, not_or]
      exact hs
  · rintro ⟨closed, jobsOpen⟩ job hj hasTask
    constructor
    · exact fun hc t ht hjob => (terminal_iff t).mpr (closed job hj hc t ht hjob)
    · intro all
      by_contra hc
      obtain ⟨t, ht, hjob, ho⟩ := jobsOpen job hj hc hasTask
      rw [(terminal_iff t).mp (all t ht hjob)] at ho
      cases ho

/-- Runs all of whose transactions meet `KeepsJobContract` keep the job status
in step with the tasks. -/
theorem job_status_contract {trace : List (ServiceState × ServiceOp)}
    (run : ServiceRun maxAttempts .init trace s)
    (guard : ∀ p ∈ trace, KeepsJobContract maxAttempts p.1 p.2) : JobStatusContract s := by
  apply jobStatusContract_iff.mpr
  refine Run.guarded (P := fun s => JobsClosed s ∧ JobsOpen s) (KeepsJobContract maxAttempts) run
    ?_ jobContract_step guard
  exact ⟨fun job hj => by simp [ServiceState.init, Db.empty, Table.empty] at hj,
    fun job hj => by simp [ServiceState.init, Db.empty, Table.empty] at hj⟩

theorem job_status_contract_oneTask :
    ∃ s, exec (serviceNext 3) .init oneTaskOps = some s ∧ s.claimed = [1] ∧ JobStatusContract s := by
  have enabled : (exec (serviceNext 3) .init oneTaskOps).map ServiceState.claimed = some [1] := by
    decide
  obtain ⟨s, hs, claimed⟩ := Option.map_eq_some_iff.mp enabled
  refine ⟨s, hs, claimed, job_status_contract (exec_run hs) (steps_all (KeepsJobContract 3) ?_)⟩
  simp [oneTaskOps, oneTaskSubmission, plainSubmission, KeepsJobContract]

/-- Only invalid domains; the last attempt recovered after its lease; a worker
that reschedules a task another worker has completed. -/
theorem job_status_contract_fails :
    (exec (serviceNext 3) .init
        [.createJob (plainSubmission 1 [] [⟨"x", false, none⟩])]).any
      (fun s => !decide (JobStatusContract s)) = true ∧
    (exec (serviceNext 1) .init
        [.createJob oneTaskSubmission,
          .claimTasks 1 120 none 0, .recoveryCycle 1 121 121 (fun _ => .unjittered 121)]).any
      (fun s => !decide (JobStatusContract s)) = true ∧
    (exec (serviceNext 3) .init
        (oneTaskOps ++ [.writeRescheduleTask 1 "timeout" 6 (.unjittered 6)])).any
      (fun s => !decide (JobStatusContract s)) = true := by
  decide

end DomainProcessing
