import DomainProcessing.JobContract

namespace DomainProcessing

open Tables OrderedSelection Runs

/-- The condition on a transaction under which no terminal row changes its
status. -/
def KeepsTerminal (maxAttempts : Nat) (tasks : List Task) : ServiceOp → Prop
  | .writeCompleteTask taskId _ => ∀ t ∈ tasks, t.id = taskId → t.status ≠ .failed
  | .writeFailTask taskId _ _ | .writeFailTaskWithDeactivation taskId _ _ _ _ =>
    ∀ t ∈ tasks, t.id = taskId → t.status ≠ .completed
  | .writeRescheduleTask taskId _ _ _ =>
    ∀ t ∈ tasks, t.id = taskId →
      t.status ≠ .completed ∧ (t.status = .failed → maxAttempts ≤ t.attempts)
  | _ => True

instance (maxAttempts : Nat) (tasks : List Task) :
    (op : ServiceOp) → Decidable (KeepsTerminal maxAttempts tasks op)
  | .writeCompleteTask taskId _ =>
    inferInstanceAs (Decidable (∀ t ∈ tasks, t.id = taskId → t.status ≠ .failed))
  | .writeFailTask taskId _ _ | .writeFailTaskWithDeactivation taskId _ _ _ _ =>
    inferInstanceAs (Decidable (∀ t ∈ tasks, t.id = taskId → t.status ≠ .completed))
  | .writeRescheduleTask taskId _ _ _ =>
    inferInstanceAs (Decidable (∀ t ∈ tasks, t.id = taskId →
      t.status ≠ .completed ∧ (t.status = .failed → maxAttempts ≤ t.attempts)))
  | .createJob _ | .createRefreshTasks _ _ _ | .claimTasks _ _ _ _ | .recoveryCycle _ _ _ _ =>
    inferInstanceAs (Decidable True)

variable {maxAttempts : Nat} {s s' : ServiceState} {op : ServiceOp} {t : Task}
  {trace before later : List (ServiceState × ServiceOp)}

theorem rescheduleRow_status (error : String) (now : Instant) (draw : RetryDraw) (t : Task) :
    (rescheduleRow maxAttempts error now draw t).status =
      if maxAttempts ≤ t.attempts then .failed else .pending := by
  unfold rescheduleRow
  split <;> rfl

/-- `KeepsTerminal` is exactly what one transaction needs. -/
theorem keepsTerminal_iff (tasks : List Task) (op : ServiceOp) :
    KeepsTerminal maxAttempts tasks op ↔ ∀ t ∈ tasks, t.status.isOpen = false →
      (rowAfter maxAttempts tasks op t).status = t.status := by
  cases op with
  | createJob | createRefreshTasks => simp [KeepsTerminal]
  | claimTasks limit lease taskTypes now =>
    simp only [KeepsTerminal, true_iff]
    intro t _ ht
    have unselected : t ∉ claimSelection limit taskTypes tasks := by
      intro hm
      rw [(mem_claimSelection hm).2] at ht
      cases ht
    simp only [rowAfter, if_neg unselected]
  | recoveryCycle limit now updatedAt draws =>
    simp only [KeepsTerminal, true_iff]
    intro t _ ht
    have unselected : t ∉ recoverySelection limit now tasks := by
      intro hm
      rw [leaseExpired_processing (mem_recoverySelection hm).2] at ht
      cases ht
    simp only [rowAfter, if_neg unselected]
  | writeCompleteTask taskId now =>
    simp only [KeepsTerminal, rowAfter]
    refine forall₂_congr fun t _ => ?_
    by_cases hk : t.id = taskId
    · cases t.status <;> simp [hk, completeRow, TaskStatus.isOpen]
    · simp [hk]
  | writeFailTask taskId error now | writeFailTaskWithDeactivation taskId domainId error failure now =>
    simp only [KeepsTerminal, rowAfter]
    refine forall₂_congr fun t _ => ?_
    by_cases hk : t.id = taskId
    · cases t.status <;> simp [hk, failRow, TaskStatus.isOpen]
    · simp [hk]
  | writeRescheduleTask taskId error now draw =>
    simp only [KeepsTerminal, rowAfter]
    refine forall₂_congr fun t _ => ?_
    by_cases hk : t.id = taskId
    · rw [if_pos hk, rescheduleRow_status]
      by_cases hx : maxAttempts ≤ t.attempts
      · cases t.status <;> simp [hk, hx, TaskStatus.isOpen]
      · cases t.status <;> simp [hk, hx, TaskStatus.isOpen]
    · simp [hk]

/-- Along a guarded run a terminal row keeps its id and its status. -/
theorem terminal_row_kept (run : ServiceRun maxAttempts s trace s')
    (guard : ∀ p ∈ trace, KeepsTerminal maxAttempts p.1.tasks p.2)
    (ht : t ∈ s.tasks) (terminal : t.status.isOpen = false) :
    ∃ t' ∈ s'.tasks, t'.id = t.id ∧ t'.status = t.status := by
  refine run.guarded (P := fun u => ∃ t' ∈ u.tasks, t'.id = t.id ∧ t'.status = t.status)
    (fun u op => KeepsTerminal maxAttempts u.tasks op) ⟨t, ht, rfl, rfl⟩ ?_ guard
  rintro u op u' ⟨row, hrow, hid, hstatus⟩ hop hstep
  have same : (rowAfter maxAttempts u.tasks op row).status = row.status :=
    (keepsTerminal_iff u.tasks op).mp hop row hrow (hstatus ▸ terminal)
  have member := serviceNext_row hstep hrow
  exact ⟨_, member, (rowAfter_id _ _ _).trans hid, same.trans hstatus⟩

theorem jobsClosed_kept (closed : JobsClosed s) (guard : KeepsTerminal maxAttempts s.tasks op)
    (h : serviceNext maxAttempts s op = some s') : JobsClosed s' := by
  obtain ⟨new, newJobs, effect⟩ := serviceNext_effect h
  apply jobsClosed_step effect closed
  intro job _ _ t ht _ terminal
  rw [(keepsTerminal_iff s.tasks op).mp guard t ht terminal]
  exact terminal

theorem jobsClosed_init : JobsClosed .init := by
  intro job hj
  simp [ServiceState.init, Db.empty, Table.empty] at hj

/-- A completed job stays completed, whatever the worker writes. -/
theorem completed_job_kept (run : ServiceRun maxAttempts s trace s') {job : Job}
    (hj : job ∈ s.db.jobs.rows) (hc : job.status = .completed) :
    ∃ job' ∈ s'.db.jobs.rows, job'.id = job.id ∧ job'.status = .completed := by
  refine run.invariant (P := fun u => ∃ job' ∈ u.db.jobs.rows, job'.id = job.id ∧
    job'.status = .completed) ⟨job, hj, rfl, hc⟩ ?_
  rintro u op u' ⟨row, hrow, hid, hstatus⟩ hstep
  obtain ⟨new, newJobs, effect⟩ := serviceNext_effect hstep
  have member : reevaluated (evaluatedJob maxAttempts u.db.tasks op).1 u'.tasks
      (evaluatedJob maxAttempts u.db.tasks op).2 row ∈ u'.db.jobs.rows := by
    rw [effect.jobs]
    exact List.mem_append_left _ (List.mem_map_of_mem hrow)
  exact ⟨_, member, (reevaluated_id _ _ _ _).trans hid,
    (reevaluated_completed_iff _ _ _ _).mpr (Or.inr hstatus)⟩

/-- Under `KeepsTerminal` a terminal task keeps its status for ever and a
completed job never has an open task again. -/
theorem terminal_states_final (run : ServiceRun maxAttempts .init before s)
    (rest : ServiceRun maxAttempts s later s')
    (guard : ∀ p ∈ later ++ before, KeepsTerminal maxAttempts p.1.tasks p.2) :
    (∀ t ∈ s.tasks, t.status.isOpen = false →
      ∃ t' ∈ s'.tasks, t'.id = t.id ∧ t'.status = t.status) ∧
    (∀ job ∈ s.db.jobs.rows, job.status = .completed →
      ∀ t' ∈ s'.tasks, t'.jobId = some job.id → t'.status.isOpen = false) := by
  have guardLater : ∀ p ∈ later, KeepsTerminal maxAttempts p.1.tasks p.2 :=
    fun p hp => guard p (List.mem_append_left _ hp)
  refine ⟨fun t ht terminal => terminal_row_kept rest guardLater ht terminal, ?_⟩
  intro job hj hc t' ht' hjob
  have closed : JobsClosed s' :=
    (run.trans rest).guarded (P := JobsClosed) (fun u op => KeepsTerminal maxAttempts u.tasks op)
      jobsClosed_init jobsClosed_kept guard
  obtain ⟨job', hj', hid, hc'⟩ := completed_job_kept rest hj hc
  exact closed job' hj' hc' t' ht' (hid ▸ hjob)

theorem terminal_states_final_oneTask :
    ∃ s s', exec (serviceNext 3) .init oneTaskOps = some s ∧
      exec (serviceNext 3) s [.claimTasks 5 360 none 240] = some s' ∧
      s.tasks.map Task.status = [.completed] ∧ ∀ t ∈ s.tasks, t.status.isOpen = false →
        ∃ t' ∈ s'.tasks, t'.id = t.id ∧ t'.status = t.status := by
  have enabled : (exec (serviceNext 3) .init oneTaskOps).map (fun s => s.tasks.map Task.status) =
      some [.completed] := by decide
  have guard : ∀ p ∈ steps (serviceNext 3) .init oneTaskOps, KeepsTerminal 3 p.1.tasks p.2 := by
    decide
  obtain ⟨s, hs, completed⟩ := Option.map_eq_some_iff.mp enabled
  have hs' : exec (serviceNext 3) s [.claimTasks 5 360 none 240] = some _ := rfl
  refine ⟨s, _, hs, hs', completed, (terminal_states_final (exec_run hs) (exec_run hs') ?_).1⟩
  intro p hp
  rcases List.mem_append.mp hp with hp | hp
  · refine steps_all (fun u op => KeepsTerminal 3 u.tasks op) ?_ p hp
    simp [KeepsTerminal]
  · exact guard p hp

/-- The first worker loses its lease, the task is recovered and completed by a
second one. -/
def staleWorkerOps : List ServiceOp :=
  [.createJob oneTaskSubmission, .claimTasks 1 120 none 0, .recoveryCycle 1 121 121 (fun _ => .unjittered 121),
    .claimTasks 1 360 none 240, .writeCompleteTask 1 250]

/-- The task and job statuses a run ends in. -/
def statusesAfter (maxAttempts : Nat) (ops : List ServiceOp) :
    Option (List TaskStatus × List TaskStatus) :=
  (exec (serviceNext maxAttempts) .init ops).map fun s =>
    (s.tasks.map Task.status, s.db.jobs.rows.map Job.status)

/-- What the first worker then writes replaces the terminal status. -/
theorem terminal_states_final_fails :
    statusesAfter 3 staleWorkerOps = some ([.completed], [.completed]) ∧
    statusesAfter 3 (staleWorkerOps ++ [.writeRescheduleTask 1 "timeout" 260 (.unjittered 260)]) =
      some ([.pending], [.completed]) ∧
    statusesAfter 3 (staleWorkerOps ++ [.writeFailTask 1 "error" 260]) =
      some ([.failed], [.completed]) := by
  decide

end DomainProcessing
