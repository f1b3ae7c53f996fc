import DomainProcessing.ClosingInvariant

namespace DomainProcessing

open Tables RowLocks Runs

variable {c : JobClosing} {k : TaskId} {t : Task}

/-- How far a job has come. -/
def TaskStatus.rank : TaskStatus → Nat
  | .pending => 0
  | .processing => 1
  | .failed => 2
  | .completed => 3

theorem evaluateJobStatus_rank (n : Nat) (now : Instant) (job : Job) :
    job.status.rank ≤ (evaluateJobStatus n now job).status.rank := by
  have bound : job.status.rank ≤ TaskStatus.completed.rank := by
    cases job.status <;> decide
  unfold evaluateJobStatus
  split
  · split
    · exact bound
    · exact le_rfl
  · split
    next h => rw [h]; exact Nat.zero_le _
    next => exact le_rfl

/-- Only a commit changes the committed job, and it carries the status forward. -/
theorem job_rank_step {s s' : ClosingState} {step : ClosingStep}
    (inv : ClosingInv c s.tasks s.jobs s.phase) (h : c.next s step = some s') {job : Job}
    (hj : s.jobs.committed c.jobId = some job) :
    ∃ job', s'.jobs.committed c.jobId = some job' ∧ job.status.rank ≤ job'.status.rank := by
  cases step with
  | writeTask k =>
    obtain ⟨_, h⟩ := Option.ite_none_right_eq_some.mp h
    obtain ⟨tasks, _, rfl⟩ := Option.map_eq_some_iff.mp h
    exact ⟨job, hj, le_rfl⟩
  | lockJob k =>
    obtain ⟨_, h⟩ := Option.ite_none_right_eq_some.mp h
    obtain ⟨jobs, hl, rfl⟩ := Option.map_eq_some_iff.mp h
    obtain ⟨_, rfl⟩ := Store.lock_eq_some_iff.mp hl
    exact ⟨job, hj, le_rfl⟩
  | countOpen k =>
    obtain ⟨_, h⟩ := Option.ite_none_right_eq_some.mp h
    cases Option.some.inj h
    exact ⟨job, hj, le_rfl⟩
  | writeJob k =>
    simp only [JobClosing.next] at h
    split at h
    next n _ =>
      obtain ⟨jobs, hw, rfl⟩ := Option.map_eq_some_iff.mp h
      obtain ⟨_, rfl⟩ := Store.write_eq_some_iff.mp hw
      exact ⟨job, hj, le_rfl⟩
    next => simp at h
  | commit k =>
    obtain ⟨hp, h⟩ := Option.ite_none_right_eq_some.mp h
    cases Option.some.inj h
    have hc : (s.phase k).critical = true := by rw [hp]; rfl
    have written : s.jobs.view k c.jobId =
        some (evaluateJobStatus (c.openSeen s.tasks k) (c.now k) job) := by
      rw [Store.view_of_held (inv.inLock k hc), hp, JobClosing.version, hj, Option.map_some]
    exact ⟨_, written, evaluateJobStatus_rank _ _ job⟩

theorem job_rank_run {s s' : ClosingState} {later : List (ClosingState × ClosingStep)}
    (inv : ClosingInv c s.tasks s.jobs s.phase) (rest : Run c.next s later s') {job : Job}
    (hj : s.jobs.committed c.jobId = some job) :
    ∃ job', s'.jobs.committed c.jobId = some job' ∧ job.status.rank ≤ job'.status.rank := by
  have both := rest.invariant (P := fun u => ClosingInv c u.tasks u.jobs u.phase ∧
      ∃ job', u.jobs.committed c.jobId = some job' ∧ job.status.rank ≤ job'.status.rank)
    ⟨inv, job, hj, le_rfl⟩ (by
      rintro u step u' ⟨hu, row, hrow, hle⟩ hstep
      obtain ⟨row', hrow', hle'⟩ := job_rank_step hu hstep hrow
      exact ⟨closingInv_step hu hstep, row', hrow', hle.trans hle'⟩)
  exact both.2

/-- Whatever the interleaving: a committed `COMPLETED` job has no open task, the
job is `COMPLETED` once every transaction has committed, and its status never
moves back. -/
theorem job_completion_race_safe (c : JobClosing) {job : Job}
    (hjob : c.db.jobs.get c.jobId = some job) (hs : job.status ≠ .completed)
    (hk : ∃ k, c.session k = true) {trace : List (ClosingState × ClosingStep)} {s : ClosingState}
    (run : Run c.next c.init trace s) :
    (∀ job', s.jobs.committed c.jobId = some job' → job'.status = .completed →
      ∀ k t, s.tasks.committed k = some t → t.jobId = some c.jobId → t.status.isOpen = false) ∧
    ((∀ k, c.session k = true → s.phase k = .committed) →
      ∃ job', s.jobs.committed c.jobId = some job' ∧ job'.status = .completed) ∧
    (∀ later s', Run c.next s later s' → ∀ job', s.jobs.committed c.jobId = some job' →
      ∃ job'', s'.jobs.committed c.jobId = some job'' ∧ job'.status.rank ≤ job''.status.rank) := by
  have inv := closingInv_run hjob hs hk run
  refine ⟨inv.closed, ?_, fun later s' rest job' hj => job_rank_run inv rest hj⟩
  intro all
  rcases inv.remaining with ⟨k, hk, hp⟩ | done
  · exact absurd (all k hk) hp
  · exact done

/-- A job of two tasks, one completed and one failed by its worker. -/
def twoTaskClosing : JobClosing where
  db := (createJob (plainSubmission 1 [⟨"a.com", true, none⟩, ⟨"bb.org", true, none⟩] []) .empty).1
  jobId := 1
  maxAttempts := 3
  write := fun k => if k = 1 then .writeCompleteTask else .writeFailTask "Domain not found"
  now := fun _ => 10

theorem job_completion_race_safe_two :
    ∃ s, exec twoTaskClosing.next twoTaskClosing.init
        [.writeTask 1, .writeTask 2, .lockJob 2, .countOpen 2, .writeJob 2, .commit 2, .lockJob 1,
          .countOpen 1, .writeJob 1, .commit 1] = some s ∧
      ∃ job, s.jobs.committed 1 = some job ∧ job.status = .completed := by
  have enabled : (exec twoTaskClosing.next twoTaskClosing.init
      [.writeTask 1, .writeTask 2, .lockJob 2, .countOpen 2, .writeJob 2, .commit 2, .lockJob 1,
        .countOpen 1, .writeJob 1, .commit 1]).map (fun s => [1, 2].map s.phase) =
      some [.committed, .committed] := by decide
  obtain ⟨s, hs, hp⟩ := Option.map_eq_some_iff.mp enabled
  obtain ⟨h₁, h₂⟩ : s.phase 1 = .committed ∧ s.phase 2 = .committed := by simpa using hp
  have hjob : twoTaskClosing.db.jobs.get 1 = some ⟨1, .pending, 0, 0⟩ := by decide
  have safe := job_completion_race_safe twoTaskClosing hjob (by decide) ⟨1, by decide⟩ (exec_run hs)
  refine ⟨s, hs, safe.2.1 ?_⟩
  intro k hk
  have ids : twoTaskClosing.db.tasks.rows.map Task.id = [1, 2] := by decide
  have known := JobClosing.session_known hk
  rw [ids] at known
  simp only [List.mem_cons, List.not_mem_nil, or_false] at known
  rcases known with rfl | rfl
  · exact h₁
  · exact h₂

/-- The transactions never deadlock: while one is unfinished, some step is enabled. -/
theorem closing_progress {s : ClosingState} (inv : ClosingInv c s.tasks s.jobs s.phase)
    (hk : c.session k = true) (hp : s.phase k ≠ .committed) : ∃ step, (c.next s step).isSome := by
  by_cases inside : ∃ i, (s.phase i).critical = true
  · obtain ⟨i, hi⟩ := inside
    have hf : s.jobs.free i c.jobId = true := by simp [Store.free, inv.inLock i hi]
    cases hpi : s.phase i with
    | ready | written | committed => simp [hpi, ClosingPhase.critical] at hi
    | locked => exact ⟨.countOpen i, by simp [JobClosing.next, hpi]⟩
    | counted n => exact ⟨.writeJob i, by simp [JobClosing.next, hpi, Store.write, hf]⟩
    | evaluated => exact ⟨.commit i, by simp [JobClosing.next, hpi]⟩
  · have jobFree : s.jobs.free k c.jobId = true := by
      cases hl : s.jobs.locks c.jobId with
      | none => simp [Store.free, hl]
      | some held => exact absurd ⟨held.1, (inv.jobLock _ _ _ hl).2⟩ inside
    have rowFree : s.tasks.free k k = true := by
      cases hl : s.tasks.locks k with
      | none => simp [Store.free, hl]
      | some held => simp [Store.free, hl, (inv.ownRow _ _ _ hl).1]
    cases hpk : s.phase k with
    | ready => exact ⟨.writeTask k, by simp [JobClosing.next, hk, hpk, Store.write, rowFree]⟩
    | written => exact ⟨.lockJob k, by simp [JobClosing.next, hpk, Store.lock, jobFree]⟩
    | committed => exact absurd hpk hp
    | locked | counted | evaluated => exact absurd ⟨k, by rw [hpk]; rfl⟩ inside

theorem JobClosing.row_id (k : TaskId) (t : Task) : (c.row k t).id = t.id := by
  unfold JobClosing.row
  cases c.write k <;> rfl

/-- The five steps of one transaction in a row. -/
def serialSteps (k : TaskId) : List ClosingStep :=
  [.writeTask k, .lockJob k, .countOpen k, .writeJob k, .commit k]

theorem session_task (hk : c.session k = true) :
    ∃ t, c.db.tasks.get k = some t ∧ t.jobId = some c.jobId := by
  cases hg : c.db.tasks.get k with
  | none => simp [JobClosing.session, hg] at hk
  | some t =>
    simp only [JobClosing.session, hg, Option.any_some, Bool.and_eq_true, decide_eq_true_eq] at hk
    exact ⟨t, rfl, hk.1⟩

/-- Run without interruption, a transaction is the write helper of the service. -/
theorem serial_eq_writeTerminal (hk : c.session k = true) :
    ∃ s, exec c.next c.init (serialSteps k) = some s ∧
      s.tasks.committed = (writeTerminal (c.row k) (JobClosing.row_id k) c.db k (c.now k)).tasks.get ∧
      s.jobs.committed = (writeTerminal (c.row k) (JobClosing.row_id k) c.db k (c.now k)).jobs.get := by
  obtain ⟨t, ht, hj⟩ := session_task hk
  let after := c.db.tasks.set k (c.row k) (JobClosing.row_id k)
  let written := c.init.tasks.hold k k ((c.init.tasks.view k k).map (c.row k))
  let locked := c.init.jobs.hold k c.jobId (c.init.jobs.view k c.jobId)
  let evaluated := locked.hold k c.jobId
    ((locked.view k c.jobId).map (evaluateJobStatus (c.openSeen written k) (c.now k)))
  have sees : ∀ i, written.view k i = after.get i := by
    intro i
    rw [Table.get_set]
    by_cases h : i = k
    · subst h
      rw [if_pos rfl]
      exact Store.view_hold_self
    · rw [if_neg h]
      exact Store.view_hold_of_ne h
  have counts : c.openSeen written k = nonTerminalCount after.rows c.jobId := by
    have each : ∀ r ∈ c.db.tasks.rows,
        written.view k r.id = some (if r.id = k then c.row k r else r) := by
      intro r hr
      rw [sees, Table.get_eq_some_iff]
      refine ⟨List.mem_map_of_mem hr, ?_⟩
      split
      · exact JobClosing.row_id k r
      · rfl
    rw [JobClosing.openSeen, List.filterMap_congr each, List.filterMap_eq_map']
    rfl
  let p₁ := c.init.phase.move k .written
  let p₂ := p₁.move k .locked
  let p₃ := p₂.move k (.counted (c.openSeen written k))
  let p₄ := p₃.move k .evaluated
  have hrow : c.next c.init (.writeTask k) = some ⟨written, c.init.jobs, p₁⟩ := by
    have hf : c.init.tasks.free k k = true := rfl
    have hp : c.init.phase k = .ready := rfl
    simp [JobClosing.next, hk, hp, Store.write, hf, written, p₁]
  have hlock : c.next ⟨written, c.init.jobs, p₁⟩ (.lockJob k) = some ⟨written, locked, p₂⟩ := by
    have hf : c.init.jobs.free k c.jobId = true := rfl
    have hp : p₁ k = .written := Phases.move_self
    simp [JobClosing.next, hp, Store.lock, hf, locked, p₂]
  have hcount : c.next ⟨written, locked, p₂⟩ (.countOpen k) = some ⟨written, locked, p₃⟩ := by
    have hp : p₂ k = .locked := Phases.move_self
    simp [JobClosing.next, hp, p₃]
  have hjob : c.next ⟨written, locked, p₃⟩ (.writeJob k) = some ⟨written, evaluated, p₄⟩ := by
    have hf : locked.free k c.jobId = true := by simp [Store.free, locked, Store.hold_locks_self]
    have hp : p₃ k = .counted (c.openSeen written k) := Phases.move_self
    simp [JobClosing.next, hp, Store.write, hf, evaluated, p₄]
  have hcommit : c.next ⟨written, evaluated, p₄⟩ (.commit k) =
      some ⟨written.commit k, evaluated.commit k, p₄.move k .committed⟩ := by
    have hp : p₄ k = .evaluated := Phases.move_self
    simp [JobClosing.next, hp]
  refine ⟨⟨written.commit k, evaluated.commit k, p₄.move k .committed⟩, ?_, ?_, ?_⟩
  · rw [serialSteps, exec_cons hrow, exec_cons hlock, exec_cons hcount, exec_cons hjob,
      exec_cons hcommit]
    rfl
  · rw [writeTerminal_tasks]
    exact funext sees
  · have evaluates : (writeTerminal (c.row k) (JobClosing.row_id k) c.db k (c.now k)).jobs =
        c.db.jobs.set c.jobId (evaluateJobStatus (nonTerminalCount after.rows c.jobId) (c.now k))
          (evaluateJobStatus_id _ _) := by
      simp only [writeTerminal, ht, hj, checkAndUpdateJobStatus, after]
    rw [evaluates]
    funext j
    rw [Table.get_set, ← counts]
    by_cases h : j = c.jobId
    · subst h
      rw [if_pos rfl]
      have read : locked.view k c.jobId = c.db.jobs.get c.jobId := Store.view_hold_self
      rw [← read]
      exact Store.view_hold_self
    · rw [if_neg h]
      have unread : locked.view k j = c.db.jobs.get j := Store.view_hold_of_ne h
      rw [← unread]
      exact Store.view_hold_of_ne h

end DomainProcessing
