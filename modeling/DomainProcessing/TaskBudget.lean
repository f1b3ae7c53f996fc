import DomainProcessing.ServiceRuns

namespace DomainProcessing

open Tables OrderedSelection Runs

/-- What holds of a single task row between transactions. -/
structure TaskRowOk (maxAttempts : Nat) (t : Task) : Prop where
  pending : t.status = .pending → t.leaseExpiresAt = none ∧ t.attempts < maxAttempts
  processing : t.status = .processing →
    t.leaseExpiresAt.isSome ∧ 1 ≤ t.attempts ∧ t.attempts ≤ maxAttempts
  failed : t.status = .failed →
    ∃ payload, t.errorPayload = some payload ∧ payload.code ≠ "" ∧ payload.retryable = false
  budget : t.attempts ≤ maxAttempts

/-- The joint invariant: rows are well formed, their attempts count the claims,
and only existing tasks were ever claimed. -/
structure ServiceInv (maxAttempts : Nat) (s : ServiceState) : Prop where
  rows : ∀ t ∈ s.tasks, TaskRowOk maxAttempts t
  counted : ∀ t ∈ s.tasks, t.attempts = s.claimed.count t.id
  known : ∀ k ∈ s.claimed, ∃ t ∈ s.tasks, t.id = k

variable {maxAttempts : Nat} {s s' : ServiceState} {op : ServiceOp} {t : Task}

theorem Added.fresh {new : List Task} {newJobs : List Job} (h : Added s op new newJobs)
    (ht : t ∈ new) : t.attempts = 0 ∧ t.leaseExpiresAt = none ∧ (t.status = .pending ∨
      t.status = .failed ∧ ∃ message, t.errorPayload = some ⟨"VALIDATION_ERROR", message, false⟩) := by
  cases h with
  | nothing => simp at ht
  | job hnew => exact ⟨(hnew.fresh t ht).1, (hnew.fresh t ht).2.1, hnew.shape t ht⟩
  | refresh shape =>
    obtain ⟨id, domainId, rfl⟩ := shape t ht
    exact ⟨rfl, rfl, Or.inl rfl⟩

theorem Added.ok {new : List Task} {newJobs : List Job} (hmax : 1 ≤ maxAttempts)
    (h : Added s op new newJobs) (ht : t ∈ new) : TaskRowOk maxAttempts t := by
  obtain ⟨ha, hl, hs⟩ := h.fresh ht
  refine ⟨?_, ?_, ?_, by omega⟩
  · exact fun _ => ⟨hl, by omega⟩
  · intro hp
    rcases hs with hs | ⟨hs, _⟩ <;> simp [hs] at hp
  · intro hf
    rcases hs with hs | ⟨_, message, he⟩
    · simp [hs] at hf
    · exact ⟨_, he, (by decide : "VALIDATION_ERROR" ≠ ""), rfl⟩

theorem claimRow_ok (lease now : Instant) (h : TaskRowOk maxAttempts t) (hp : t.status = .pending) :
    TaskRowOk maxAttempts (claimRow lease now t) := by
  have bound := (h.pending hp).2
  refine ⟨?_, ?_, ?_, ?_⟩
  · intro hs; simp [claimRow] at hs
  · exact fun _ => ⟨rfl, Nat.succ_le_succ (Nat.zero_le _), bound⟩
  · intro hs; simp [claimRow] at hs
  · exact bound

theorem recoverRow_ok (now : Instant) (draw : RetryDraw) (h : TaskRowOk maxAttempts t) :
    TaskRowOk maxAttempts (recoverRow maxAttempts now draw t) := by
  have bound := h.budget
  unfold recoverRow
  split
  · refine ⟨by simp, by simp, fun _ => ⟨_, rfl, ?_, rfl⟩, bound⟩
    exact (by decide : "MAX_ATTEMPTS_EXCEEDED" ≠ "")
  · exact ⟨fun _ => ⟨rfl, by simp; omega⟩, by simp, by simp, bound⟩

theorem completeRow_ok (now : Instant) (h : TaskRowOk maxAttempts t) :
    TaskRowOk maxAttempts (completeRow .completed now t) :=
  ⟨by simp [completeRow], by simp [completeRow], by simp [completeRow], h.budget⟩

theorem failRow_ok (error : String) {category : ErrorCategory} (now : Instant)
    (hc : category = .permanent ∨ category = .security) (h : TaskRowOk maxAttempts t) :
    TaskRowOk maxAttempts (failRow error category now t) := by
  refine ⟨by simp [failRow], by simp [failRow], fun _ => ⟨_, rfl, ?_, ?_⟩, h.budget⟩
  · exact category.errorCode_ne_empty
  · rcases hc with rfl | rfl <;> rfl

theorem rescheduleRow_ok (error : String) (now : Instant) (draw : RetryDraw)
    (h : TaskRowOk maxAttempts t) :
    TaskRowOk maxAttempts (rescheduleRow maxAttempts error now draw t) := by
  have bound := h.budget
  unfold rescheduleRow
  split
  · refine ⟨by simp [exhaustRow], by simp [exhaustRow], fun _ => ⟨_, rfl, ?_, rfl⟩, bound⟩
    exact (by decide : "MAX_ATTEMPTS_EXCEEDED" ≠ "")
  · exact ⟨fun _ => ⟨rfl, by simp [retryRow]; omega⟩, by simp [retryRow], by simp [retryRow], bound⟩

theorem PermanentFailure.category_permanent_or_security (failure : PermanentFailure) :
    failure.category = .permanent ∨ failure.category = .security := by
  cases failure <;> simp [PermanentFailure.category]

theorem rowAfter_ok (tasks : List Task) (op : ServiceOp) (h : TaskRowOk maxAttempts t) :
    TaskRowOk maxAttempts (rowAfter maxAttempts tasks op t) := by
  cases op with
  | createJob | createRefreshTasks => exact h
  | claimTasks limit lease taskTypes now =>
    simp only [rowAfter]
    split
    next hm => exact claimRow_ok lease now h (mem_claimSelection hm).2
    next => exact h
  | recoveryCycle limit now updatedAt draws =>
    simp only [rowAfter]
    split
    · exact recoverRow_ok updatedAt _ h
    · exact h
  | writeCompleteTask taskId now =>
    simp only [rowAfter]
    split
    · exact completeRow_ok now h
    · exact h
  | writeFailTask taskId error now =>
    simp only [rowAfter]
    split
    · exact failRow_ok error now (Or.inl rfl) h
    · exact h
  | writeFailTaskWithDeactivation taskId domainId error failure now =>
    simp only [rowAfter]
    split
    · exact failRow_ok error now failure.category_permanent_or_security h
    · exact h
  | writeRescheduleTask taskId error now draw =>
    simp only [rowAfter]
    split
    · exact rescheduleRow_ok error now draw h
    · exact h

theorem claimedBy_subset {k : TaskId} (h : k ∈ claimedBy s.tasks op) : ∃ t ∈ s.tasks, t.id = k := by
  cases op <;> simp only [claimedBy, List.not_mem_nil, List.mem_map] at h
  obtain ⟨t, ht, hk⟩ := h
  exact ⟨t, (mem_claimSelection ht).1, hk⟩

/-- A claim is the only operation that touches `attempts`, and it adds one for
each time it returns the row. -/
theorem rowAfter_attempts (ht : t ∈ s.tasks) :
    (rowAfter maxAttempts s.tasks op t).attempts =
      (claimedBy s.tasks op).count t.id + t.attempts := by
  cases op with
  | claimTasks limit lease taskTypes now =>
    have nodup : ((claimSelection limit taskTypes s.tasks).map Task.id).Nodup :=
      claimSelection_nodup limit taskTypes s.db.tasks.nodup
    simp only [rowAfter, claimedBy]
    rw [List.Nodup.count nodup]
    by_cases hm : t ∈ claimSelection limit taskTypes s.tasks
    · have hid : t.id ∈ (claimSelection limit taskTypes s.tasks).map Task.id :=
        List.mem_map_of_mem hm
      rw [if_pos hid, if_pos hm]
      exact Nat.add_comm _ _
    · have hid : t.id ∉ (claimSelection limit taskTypes s.tasks).map Task.id := by
        intro hid
        obtain ⟨u, hu, he⟩ := List.mem_map.mp hid
        have same : u = t := Table.eq_of_key (mem_claimSelection hu).1 ht he
        exact hm (same ▸ hu)
      rw [if_neg hid, if_neg hm, Nat.zero_add]
  | recoveryCycle =>
    simp only [rowAfter, claimedBy, List.count_nil, Nat.zero_add]
    split
    · unfold recoverRow
      split <;> rfl
    · rfl
  | writeRescheduleTask =>
    simp only [rowAfter, claimedBy, List.count_nil, Nat.zero_add]
    split
    · unfold rescheduleRow
      split <;> rfl
    · rfl
  | createJob | createRefreshTasks | writeCompleteTask | writeFailTask
  | writeFailTaskWithDeactivation =>
    simp only [rowAfter, claimedBy, List.count_nil, Nat.zero_add]
    try (split <;> rfl)

theorem serviceInv_step (hmax : 1 ≤ maxAttempts) (inv : ServiceInv maxAttempts s)
    (h : serviceNext maxAttempts s op = some s') : ServiceInv maxAttempts s' := by
  obtain ⟨new, newJobs, effect⟩ := serviceNext_effect h
  have cases_of_row : ∀ t ∈ s'.tasks,
      (∃ old ∈ s.tasks, rowAfter maxAttempts s.tasks op old = t) ∨ t ∈ new := by
    intro t ht
    rw [effect.tasks] at ht
    exact (List.mem_append.mp ht).imp_left List.mem_map.mp
  refine ⟨?_, ?_, ?_⟩
  · intro t ht
    rcases cases_of_row t ht with ⟨old, hold, rfl⟩ | hnew
    · exact rowAfter_ok _ _ (inv.rows old hold)
    · exact effect.added.ok hmax hnew
  · intro t ht
    rw [effect.claimed, List.count_append]
    rcases cases_of_row t ht with ⟨old, hold, rfl⟩ | hnew
    · rw [rowAfter_id, rowAfter_attempts hold, inv.counted old hold]
    · have unseen : ∀ old ∈ s.tasks, old.id ≠ t.id := by
        intro old hold he
        exact Table.get_eq_none_iff.mp (effect.unused t hnew) (he ▸ List.mem_map_of_mem hold)
      have never : t.id ∉ claimedBy s.tasks op := fun hk =>
        let ⟨old, hold, he⟩ := claimedBy_subset hk
        unseen old hold he
      have never' : t.id ∉ s.claimed := fun hk =>
        let ⟨old, hold, he⟩ := inv.known _ hk
        unseen old hold he
      rw [(effect.added.fresh hnew).1, List.count_eq_zero_of_not_mem never,
        List.count_eq_zero_of_not_mem never']
  · intro k hk
    rw [effect.claimed, List.mem_append] at hk
    have before : ∃ t ∈ s.tasks, t.id = k := hk.elim claimedBy_subset (inv.known k)
    obtain ⟨t, ht, he⟩ := before
    exact ⟨_, serviceNext_row h ht, (rowAfter_id _ _ _).trans he⟩

theorem serviceInv_init : ServiceInv maxAttempts .init :=
  ⟨by simp [ServiceState.init, ServiceState.tasks, Db.empty, Table.empty],
    by simp [ServiceState.init, ServiceState.tasks, Db.empty, Table.empty],
    by simp [ServiceState.init]⟩

theorem serviceInv_run (hmax : 1 ≤ maxAttempts) {trace : List (ServiceState × ServiceOp)}
    (run : ServiceRun maxAttempts .init trace s) : ServiceInv maxAttempts s :=
  run.invariant serviceInv_init (serviceInv_step hmax)

/-- Along a run a row is never lost and its attempts never decrease. -/
theorem attempts_mono {trace : List (ServiceState × ServiceOp)}
    (run : ServiceRun maxAttempts s trace s') (ht : t ∈ s.tasks) :
    ∃ t' ∈ s'.tasks, t'.id = t.id ∧ t.attempts ≤ t'.attempts := by
  induction run with
  | start => exact ⟨t, ht, rfl, le_rfl⟩
  | step _ hs ih =>
    obtain ⟨u, hu, hid, hle⟩ := ih
    refine ⟨_, serviceNext_row hs hu, (rowAfter_id _ _ _).trans hid, ?_⟩
    rw [rowAfter_attempts hu]
    omega

theorem claims_within_budget (inv : ServiceInv maxAttempts s) (k : TaskId) :
    s.claimed.count k ≤ maxAttempts := by
  by_cases hk : k ∈ s.claimed
  · obtain ⟨t, ht, rfl⟩ := inv.known k hk
    rw [← inv.counted t ht]
    exact (inv.rows t ht).budget
  · rw [List.count_eq_zero_of_not_mem hk]
    exact Nat.zero_le _

/-- The task rows of every reachable state, whatever stale workers write. -/
theorem task_row_invariant (hmax : 1 ≤ maxAttempts) {trace : List (ServiceState × ServiceOp)}
    (run : ServiceRun maxAttempts .init trace s) :
    (∀ t ∈ s.tasks,
      (t.status = .pending → t.leaseExpiresAt = none ∧ t.attempts < maxAttempts) ∧
      (t.status = .processing →
        t.leaseExpiresAt.isSome ∧ 1 ≤ t.attempts ∧ t.attempts ≤ maxAttempts) ∧
      (t.status = .failed → ∃ payload, t.errorPayload = some payload ∧ payload.code ≠ "" ∧
        payload.retryable = false) ∧
      t.attempts = s.claimed.count t.id) ∧
    (∀ later s', ServiceRun maxAttempts s later s' → ∀ t ∈ s.tasks,
      ∃ t' ∈ s'.tasks, t'.id = t.id ∧ t.attempts ≤ t'.attempts) ∧
    ∀ k, s.claimed.count k ≤ maxAttempts := by
  have inv := serviceInv_run hmax run
  refine ⟨?_, fun _ _ rest _ ht => attempts_mono rest ht, claims_within_budget inv⟩
  intro t ht
  have ok := inv.rows t ht
  exact ⟨ok.pending, ok.processing, ok.failed, inv.counted t ht⟩

theorem task_row_invariant_retry :
    ∃ s, exec (serviceNext 3) .init retryOps = some s ∧ s.claimed = [1, 1] ∧
      ∀ t ∈ s.tasks, t.status = .processing → 1 ≤ t.attempts ∧ t.attempts ≤ 3 := by
  have enabled : (exec (serviceNext 3) .init retryOps).map ServiceState.claimed = some [1, 1] := by
    decide
  obtain ⟨s, hs, claimed⟩ := Option.map_eq_some_iff.mp enabled
  refine ⟨s, hs, claimed, fun t ht hp => ?_⟩
  exact (((task_row_invariant (by decide : 1 ≤ 3) (exec_run hs)).1 t ht).2.1 hp).2

end DomainProcessing
