import DomainProcessing.ServiceRuns

namespace DomainProcessing

open Tables OrderedSelection Runs

/-- A claim returns only tasks whose `next_attempt_at` has been reached. -/
def DueClaim (tasks : List Task) : ServiceOp → Prop
  | .claimTasks limit _ taskTypes now =>
    ∀ t ∈ claimSelection limit taskTypes tasks, t.nextAttemptAt ≤ now
  | _ => True

/-- Before every row that a claim should leave alone at least `limit` other
rows are waiting in the queue's order. -/
def BacklogCovers (tasks : List Task) : ServiceOp → Prop
  | .claimTasks limit _ taskTypes now =>
    ∀ t ∈ tasks, claimable (taskTypes.getD [.userRequest, .refresh]) t = true →
      now < t.nextAttemptAt → limit ≤
        rank Task.claimKey (claimable (taskTypes.getD [.userRequest, .refresh])) tasks t
  | _ => True

instance (tasks : List Task) : (op : ServiceOp) → Decidable (DueClaim tasks op)
  | .claimTasks limit _ taskTypes now =>
    inferInstanceAs (Decidable (∀ t ∈ claimSelection limit taskTypes tasks, t.nextAttemptAt ≤ now))
  | .createJob _ | .createRefreshTasks _ _ _ | .recoveryCycle _ _ _ _ | .writeCompleteTask _ _
  | .writeFailTask _ _ _ | .writeFailTaskWithDeactivation _ _ _ _ _
  | .writeRescheduleTask _ _ _ _ => inferInstanceAs (Decidable True)

/-- An operation puts task `k` back to `PENDING`, due at `u`. -/
def ReschedulesTo (maxAttempts : Nat) (tasks : List Task) (k : TaskId) (u : Instant) :
    ServiceOp → Prop
  | .writeRescheduleTask taskId _ _ draw => taskId = k ∧
    ∃ t ∈ tasks, t.id = k ∧ t.attempts < maxAttempts ∧ u = draw.nextAttemptAt t.attempts
  | .recoveryCycle limit now _ draws =>
    ∃ t ∈ recoverySelection limit now tasks, t.id = k ∧ t.attempts < maxAttempts ∧
      u = (draws k).nextAttemptAt t.attempts
  | _ => False

variable {maxAttempts : Nat} {s s' : ServiceState} {op : ServiceOp} {t : Task} {k : TaskId}
  {u : Instant} {trace later mid before : List (ServiceState × ServiceOp)}

theorem mem_claimSelection_iff (tasks : TaskTable) (ht : t ∈ tasks.rows) (limit : Int)
    (taskTypes : Option (List TaskType)) :
    t ∈ claimSelection limit taskTypes tasks.rows ↔
      claimable (taskTypes.getD [.userRequest, .refresh]) t = true ∧
        rank Task.claimKey (claimable (taskTypes.getD [.userRequest, .refresh])) tasks.rows t <
          limit := by
  unfold claimSelection
  by_cases hl : limit ≤ 0
  · simp only [if_pos hl, List.not_mem_nil, false_iff, not_and, not_lt]
    intro _
    omega
  · rw [if_neg hl]
    have bound : (limit.toNat : Int) = limit := Int.toNat_of_nonneg (by omega)
    constructor
    · intro hm
      have hc := (mem_select hm).2
      have hr := (mem_select_iff_rank (claimKey_nodup tasks) ht hc).mp hm
      exact ⟨hc, by omega⟩
    · rintro ⟨hc, hr⟩
      exact (mem_select_iff_rank (claimKey_nodup tasks) ht hc).mpr (by omega)

/-- The claim query never looks at `next_attempt_at`: only the rows queued
before it keep a row that is not due from being claimed. -/
theorem dueClaim_iff (tasks : TaskTable) (op : ServiceOp) :
    DueClaim tasks.rows op ↔ BacklogCovers tasks.rows op := by
  cases op with
  | claimTasks limit lease taskTypes now =>
    simp only [DueClaim, BacklogCovers]
    constructor
    · intro due t ht hc hlate
      by_contra hrank
      have selected := (mem_claimSelection_iff tasks ht limit taskTypes).mpr ⟨hc, by omega⟩
      exact absurd (due t selected) (not_le_of_gt hlate)
    · intro covers t hm
      have ht : t ∈ tasks.rows := (mem_claimSelection hm).1
      obtain ⟨hc, hrank⟩ := (mem_claimSelection_iff tasks ht limit taskTypes).mp hm
      by_contra hlate
      have hcover := covers t ht hc (lt_of_not_ge hlate)
      omega
  | createJob | createRefreshTasks | recoveryCycle | writeCompleteTask | writeFailTask
  | writeFailTaskWithDeactivation | writeRescheduleTask => exact Iff.rfl

/-- A row waiting for instant `u`: not in a worker's hands, due at `u`. -/
def WaitsFor (tasks : List Task) (k : TaskId) (u : Instant) : Prop :=
  ∃ t ∈ tasks, t.id = k ∧ t.status ≠ .processing ∧ t.nextAttemptAt = u

theorem waitsFor_of_rescheduled (h : serviceNext maxAttempts s op = some s')
    (resched : ReschedulesTo maxAttempts s.tasks k u op) : WaitsFor s'.tasks k u := by
  have written : ∃ t ∈ s.tasks, t.id = k ∧
      (rowAfter maxAttempts s.tasks op t).status ≠ .processing ∧
      (rowAfter maxAttempts s.tasks op t).nextAttemptAt = u := by
    cases op with
    | writeRescheduleTask taskId error now draw =>
      obtain ⟨hk, t, ht, hid, hlt, hu⟩ := resched
      refine ⟨t, ht, hid, ?_⟩
      simp only [rowAfter, if_pos (hid.trans hk.symm), rescheduleRow, if_neg (by omega : ¬maxAttempts ≤ t.attempts)]
      exact ⟨by simp [retryRow], hu.symm⟩
    | recoveryCycle limit now updatedAt draws =>
      obtain ⟨t, hm, hid, hlt, hu⟩ := resched
      refine ⟨t, (mem_recoverySelection hm).1, hid, ?_⟩
      simp only [rowAfter, if_pos hm, recoverRow, if_neg (by omega : ¬maxAttempts ≤ t.attempts)]
      exact ⟨by simp, by rw [hid]; exact hu.symm⟩
    | createJob | createRefreshTasks | claimTasks | writeCompleteTask | writeFailTask
    | writeFailTaskWithDeactivation => exact resched.elim
  obtain ⟨t, ht, hid, hs, hn⟩ := written
  exact ⟨_, serviceNext_row h ht, (rowAfter_id _ _ _).trans hid, hs, hn⟩

/-- Only a claim or another reschedule of the task ends its wait. -/
theorem waitsFor_step (waits : WaitsFor s.tasks k u) (h : serviceNext maxAttempts s op = some s')
    (unclaimed : k ∉ claimedBy s.tasks op)
    (unmoved : ∀ v, ¬ReschedulesTo maxAttempts s.tasks k v op) : WaitsFor s'.tasks k u := by
  obtain ⟨t, ht, hid, hs, hn⟩ := waits
  have kept : (rowAfter maxAttempts s.tasks op t).status ≠ .processing ∧
      (rowAfter maxAttempts s.tasks op t).nextAttemptAt = t.nextAttemptAt := by
    cases op with
    | createJob | createRefreshTasks => exact ⟨hs, rfl⟩
    | claimTasks limit lease taskTypes now =>
      have hm : t ∉ claimSelection limit taskTypes s.tasks := by
        intro hm
        exact unclaimed (hid ▸ List.mem_map_of_mem hm)
      simp only [rowAfter, if_neg hm]
      exact ⟨hs, trivial⟩
    | recoveryCycle limit now updatedAt draws =>
      have hm : t ∉ recoverySelection limit now s.tasks := by
        intro hm
        exact hs (leaseExpired_processing (mem_recoverySelection hm).2)
      simp only [rowAfter, if_neg hm]
      exact ⟨hs, trivial⟩
    | writeCompleteTask taskId now | writeFailTask taskId error now
    | writeFailTaskWithDeactivation taskId domainId error failure now =>
      by_cases hk : t.id = taskId
      · simp only [rowAfter, if_pos hk]
        exact ⟨by simp [completeRow, failRow], rfl⟩
      · simp only [rowAfter, if_neg hk]
        exact ⟨hs, trivial⟩
    | writeRescheduleTask taskId error now draw =>
      by_cases hk : t.id = taskId
      · have exhausted : maxAttempts ≤ t.attempts := by
          by_contra hx
          exact unmoved _ ⟨hk.symm.trans hid, t, ht, hid, by omega, rfl⟩
        simp only [rowAfter, if_pos hk, rescheduleRow, if_pos exhausted]
        exact ⟨by simp [exhaustRow], rfl⟩
      · simp only [rowAfter, if_neg hk]
        exact ⟨hs, trivial⟩
  exact ⟨_, serviceNext_row h ht, (rowAfter_id _ _ _).trans hid, kept.1, kept.2.trans hn⟩

/-- A task that a step of the trace reschedules to `u` is not claimed before
`u`, unless it was claimed or rescheduled in between. -/
def WaitsOut (maxAttempts : Nat) (trace : List (ServiceState × ServiceOp)) : Prop :=
  ∀ later mid before m n resched k u limit lease taskTypes now,
    trace = later ++ (n, .claimTasks limit lease taskTypes now) :: (mid ++ (m, resched) :: before) →
    ReschedulesTo maxAttempts m.tasks k u resched →
    (∀ p ∈ mid, k ∉ claimedBy p.1.tasks p.2 ∧
      ∀ v, ¬ReschedulesTo maxAttempts p.1.tasks k v p.2) →
    k ∈ claimedBy n.tasks (.claimTasks limit lease taskTypes now) → u ≤ now

/-- The claims of a run respect `next_attempt_at` exactly when the backlog
covers every row that is not due; rescheduled tasks then wait. -/
theorem backoff_honoured (run : ServiceRun maxAttempts .init trace s) :
    ((∀ p ∈ trace, DueClaim p.1.tasks p.2) ↔ ∀ p ∈ trace, BacklogCovers p.1.tasks p.2) ∧
    ((∀ p ∈ trace, BacklogCovers p.1.tasks p.2) → WaitsOut maxAttempts trace) := by
  have same : (∀ p ∈ trace, DueClaim p.1.tasks p.2) ↔ ∀ p ∈ trace, BacklogCovers p.1.tasks p.2 :=
    forall₂_congr fun p _ => dueClaim_iff p.1.db.tasks p.2
  refine ⟨same, ?_⟩
  rintro covers later mid before m n resched k u limit lease taskTypes now rfl rescheduled quiet claimed
  obtain ⟨_, upToClaim, _⟩ := run.of_append
  cases upToClaim with
  | step untilClaim _ =>
    obtain ⟨w, upToWrite, rest⟩ := untilClaim.of_append
    cases upToWrite with
    | step _ hw =>
      have waits : WaitsFor n.tasks k u :=
        rest.guarded (P := fun x => WaitsFor x.tasks k u)
          (fun x op => k ∉ claimedBy x.tasks op ∧ ∀ v, ¬ReschedulesTo maxAttempts x.tasks k v op)
          (waitsFor_of_rescheduled hw rescheduled)
          (fun waits unmoved h => waitsFor_step waits h unmoved.1 unmoved.2) quiet
      obtain ⟨t, ht, hid, _, hu⟩ := waits
      obtain ⟨r, hr, hrid⟩ := List.mem_map.mp claimed
      have hrt : r = t := Table.eq_of_key (mem_claimSelection hr).1 ht (hrid.trans hid.symm)
      have due : DueClaim n.tasks (.claimTasks limit lease taskTypes now) :=
        same.mpr covers (n, _) (by simp)
      rw [← hu, ← hrt]
      exact due r hr

/-- The task of `retryOps` is claimed again while it should wait for a minute. -/
theorem backoff_honoured_fails :
    (exec (serviceNext 3) .init retryOps).map ServiceState.claimed = some [1, 1] ∧
      ¬∀ p ∈ steps (serviceNext 3) .init retryOps, DueClaim p.1.tasks p.2 := by
  decide

def claimedOps : List ServiceOp := [.createJob oneTaskSubmission, .claimTasks 1 120 none 0]

def waitingOps : List ServiceOp := claimedOps ++ [.writeRescheduleTask 1 "timeout" 5 (.unjittered 5)]

theorem backoff_honoured_waited :
    (∀ p ∈ steps (serviceNext 3) .init (waitingOps ++ [.claimTasks 1 61000000 none 60000005]),
      DueClaim p.1.tasks p.2) ∧ (RetryDraw.unjittered 5).nextAttemptAt 1 ≤ 60000005 := by
  have first : (exec (serviceNext 3) .init claimedOps).isSome := by decide
  have second : (exec (serviceNext 3) .init waitingOps).isSome := by decide
  have third : (exec (serviceNext 3) .init
      (waitingOps ++ [.claimTasks 1 61000000 none 60000005])).isSome := by decide
  have due : ∀ p ∈ steps (serviceNext 3) .init (waitingOps ++ [.claimTasks 1 61000000 none 60000005]),
      DueClaim p.1.tasks p.2 := by decide
  have honoured := backoff_honoured (exec_run (Option.some_get third).symm)
  have earlier : steps (serviceNext 3) .init waitingOps = _ :: steps (serviceNext 3) .init claimedOps :=
    steps_concat (Option.some_get first).symm _
  have parts := steps_concat (Option.some_get second).symm (.claimTasks 1 61000000 none 60000005)
  rw [earlier] at parts
  refine ⟨due, honoured.2 (honoured.1.mp due) [] [] _ _ _ _ 1 _ _ _ _ _ parts ⟨rfl, ?_⟩ (by simp) ?_⟩
  · clear parts earlier
    decide +revert
  · clear parts earlier
    decide +revert

end DomainProcessing
