import DomainProcessing.ProcessTask

namespace DomainProcessing

open Tables OrderedSelection Runs

/-- Claims and workers without crashes, lost leases or database errors. The
tasks of failed attempts are remembered. -/
structure ContentionState where
  db : Db
  hands : List Task
  failedWork : List TaskId

inductive ContentionStep
  | createJob (sub : Submission)
  | createRefreshTasks (uuid : DomainId → TaskId) (domainIds : List DomainId) (now : Instant)
  | claimTasks (limit : Int) (leaseExpiresAt : Instant) (taskTypes : Option (List TaskType))
      (now : Instant)
  | processTask (task : Task) (attempt : Attempt)

def contentionNext (maxAttempts : Nat) (s : ContentionState) : ContentionStep → Option ContentionState
  | .createJob sub => some { s with db := (createJob sub s.db).1 }
  | .createRefreshTasks uuid domainIds now =>
    some { s with db := { s.db with
      tasks := (createRefreshTasks uuid domainIds now s.db.tasks).getD s.db.tasks } }
  | .claimTasks limit leaseExpiresAt taskTypes now =>
    let result := claimTasks limit leaseExpiresAt taskTypes now s.db.tasks
    some { s with db := { s.db with tasks := result.1 }, hands := result.2 ++ s.hands }
  | .processTask task attempt =>
    if task ∈ s.hands ∧ attempt.databaseError = false then
      some ⟨attempt.processTask.write.apply maxAttempts s.db task, s.hands.erase task,
        if attempt.processTask.failedWork then task.id :: s.failedWork else s.failedWork⟩
    else none

def contentionInit : ContentionState := ⟨.empty, [], []⟩

/-- The task was set to `FAILED` with `MAX_ATTEMPTS_EXCEEDED`. -/
def Task.exhausted (t : Task) : Bool :=
  t.status == .failed && t.errorPayload.any (fun payload => payload.code == "MAX_ATTEMPTS_EXCEEDED")

/-- Exhausted tasks and inactive domains have an attempt behind them whose DNS
or HTTP work failed. -/
structure ContentionHarmless (s : ContentionState) : Prop where
  exhausted : ∀ t ∈ s.db.tasks.rows, t.exhausted = true → t.id ∈ s.failedWork
  deactivated : ∀ d ∈ s.db.domains.rows, d.isActive = false →
    ∃ t ∈ s.db.tasks.rows, t.domainId = d.id ∧ t.id ∈ s.failedWork

/-- A failed lock meets a task that has attempts left or failed work behind it. -/
def LockFailureTolerable (maxAttempts : Nat) (s : ContentionState) : ContentionStep → Prop
  | .processTask task attempt => attempt.lockFailed = true →
    ∀ t ∈ s.db.tasks.rows, t.id = task.id → t.attempts < maxAttempts ∨ t.id ∈ s.failedWork
  | _ => True

instance (maxAttempts : Nat) (s : ContentionState) :
    (step : ContentionStep) → Decidable (LockFailureTolerable maxAttempts s step)
  | .processTask task attempt =>
    inferInstanceAs (Decidable (attempt.lockFailed = true →
      ∀ t ∈ s.db.tasks.rows, t.id = task.id → t.attempts < maxAttempts ∨ t.id ∈ s.failedWork))
  | .createJob _ | .createRefreshTasks _ _ _ | .claimTasks _ _ _ _ =>
    inferInstanceAs (Decidable True)

/-- The copies in the workers' hands are of existing rows. -/
def HandsKnown (s : ContentionState) : Prop :=
  ∀ t ∈ s.hands, ∃ row ∈ s.db.tasks.rows, row.id = t.id ∧ row.domainId = t.domainId

variable {maxAttempts : Nat} {s s' : ContentionState} {step : ContentionStep} {t : Task} {d : Domain}

/-- Only the exhausted branch of a reschedule exhausts a row. -/
theorem WorkerWrite.exhausts {write : WorkerWrite}
    (h : (write.row maxAttempts t).exhausted = true) :
    t.exhausted = true ∨ write.plain = false ∧ maxAttempts ≤ t.attempts := by
  cases write with
  | complete now => simp [WorkerWrite.row, completeRow, Task.exhausted] at h
  | fail error now => simp [WorkerWrite.row, failRow, Task.exhausted, ErrorCategory.errorCode] at h
  | failWithDeactivation error failure now =>
    cases failure <;>
      simp [WorkerWrite.row, failRow, Task.exhausted, ErrorCategory.errorCode,
        PermanentFailure.category] at h
  | reschedule error now draw =>
    by_cases hx : maxAttempts ≤ t.attempts
    · exact Or.inr ⟨rfl, hx⟩
    · simp [WorkerWrite.row, rescheduleRow, if_neg hx, retryRow, Task.exhausted] at h
  | nothing => exact Or.inl h

/-- The ways a worker's write leaves a domain inactive. -/
theorem WorkerWrite.deactivates {write : WorkerWrite} {db : Db} {task : Task}
    (hd : d ∈ (write.apply maxAttempts db task).domains.rows) (inactive : d.isActive = false) :
    (∃ old ∈ db.domains.rows, old.id = d.id ∧ old.isActive = false) ∨
    (∃ error failure now, write = .failWithDeactivation error failure now ∧ d.id = task.domainId) ∨
    (∃ row ∈ db.tasks.rows, row.id = task.id ∧ maxAttempts ≤ row.attempts ∧ d.id = row.domainId ∧
      write.plain = false) := by
  cases write with
  | complete now =>
    simp only [WorkerWrite.apply, writeCompleteTask, writeTerminal_domains] at hd
    exact Or.inl ⟨d, hd, rfl, inactive⟩
  | fail error now =>
    simp only [WorkerWrite.apply, writeFailTask, writeTerminal_domains] at hd
    exact Or.inl ⟨d, hd, rfl, inactive⟩
  | nothing => exact Or.inl ⟨d, hd, rfl, inactive⟩
  | failWithDeactivation error failure now =>
    simp only [WorkerWrite.apply, writeFailTaskWithDeactivation] at hd
    split at hd
    · rcases inactive_of_deactivateDomain _ hd inactive with same | old
      · exact Or.inr (Or.inl ⟨error, failure, now, rfl, same⟩)
      · rw [writeTerminal_domains] at old
        exact Or.inl old
    · rw [writeTerminal_domains] at hd
      exact Or.inl ⟨d, hd, rfl, inactive⟩
  | reschedule error now draw =>
    simp only [WorkerWrite.apply, writeRescheduleTask] at hd
    cases hg : db.tasks.get task.id with
    | none =>
      rw [hg] at hd
      exact Or.inl ⟨d, hd, rfl, inactive⟩
    | some row =>
      obtain ⟨hrow, hid⟩ := Table.get_eq_some_iff.mp hg
      rw [hg] at hd
      by_cases hx : maxAttempts ≤ row.attempts
      · simp only [if_pos hx] at hd
        split at hd
        · rcases inactive_of_deactivateDomain _ hd inactive with same | old
          · exact Or.inr (Or.inr ⟨row, hrow, hid, hx, same, rfl⟩)
          · rw [checkAndUpdateJobStatus_domains] at old
            exact Or.inl old
        · rw [checkAndUpdateJobStatus_domains] at hd
          exact Or.inl ⟨d, hd, rfl, inactive⟩
      · simp only [if_neg hx] at hd
        exact Or.inl ⟨d, hd, rfl, inactive⟩

/-- No step loses a row or moves it to another domain. -/
theorem contention_row (h : contentionNext maxAttempts s step = some s') (ht : t ∈ s.db.tasks.rows) :
    ∃ t' ∈ s'.db.tasks.rows, t'.id = t.id ∧ t'.domainId = t.domainId := by
  cases step with
  | createJob sub =>
    cases Option.some.inj h
    rcases createJob_cases sub s.db with same | ⟨new, _, _, _, _, hins⟩
    · exact ⟨t, by rw [same]; exact ht, rfl, rfl⟩
    · exact ⟨t, by rw [Table.insert_rows hins]; exact List.mem_append_left _ ht, rfl, rfl⟩
  | createRefreshTasks uuid domainIds now =>
    cases Option.some.inj h
    refine ⟨t, ?_, rfl, rfl⟩
    cases hc : createRefreshTasks uuid domainIds now s.db.tasks with
    | none => exact ht
    | some after =>
      obtain ⟨created, _, hins⟩ := Option.bind_eq_some_iff.mp hc
      simp only [Option.getD_some]
      rw [Table.insert_rows hins]
      exact List.mem_append_left _ ht
  | claimTasks limit lease taskTypes now =>
    cases Option.some.inj h
    refine ⟨_, List.mem_map_of_mem ht, ?_⟩
    split <;> exact ⟨rfl, rfl⟩
  | processTask task attempt =>
    obtain ⟨_, h⟩ := Option.ite_none_right_eq_some.mp h
    cases Option.some.inj h
    refine ⟨if t.id = task.id then attempt.processTask.write.row maxAttempts t else t, ?_, ?_⟩
    · rw [WorkerWrite.apply_tasks]
      exact List.mem_map_of_mem ht
    · split
      · exact ⟨WorkerWrite.row_id _ _ _, (WorkerWrite.row_subject _ _ _).1⟩
      · exact ⟨rfl, rfl⟩

theorem handsKnown_step (known : HandsKnown s) (h : contentionNext maxAttempts s step = some s') :
    HandsKnown s' := by
  have kept : ∀ t ∈ s.hands, ∃ row ∈ s'.db.tasks.rows, row.id = t.id ∧ row.domainId = t.domainId := by
    intro t ht
    obtain ⟨row, hrow, hid, hdomain⟩ := known t ht
    obtain ⟨row', hrow', hid', hdomain'⟩ := contention_row h hrow
    exact ⟨row', hrow', hid'.trans hid, hdomain'.trans hdomain⟩
  cases step with
  | createJob sub =>
    cases Option.some.inj h
    exact kept
  | createRefreshTasks uuid domainIds now =>
    cases Option.some.inj h
    exact kept
  | claimTasks limit lease taskTypes now =>
    cases Option.some.inj h
    intro t ht
    rcases List.mem_append.mp ht with hnew | hold
    · obtain ⟨row, hrow, rfl⟩ := List.mem_map.mp hnew
      refine ⟨_, List.mem_map_of_mem (mem_claimSelection hrow).1, ?_⟩
      rw [if_pos hrow]
      exact ⟨rfl, rfl⟩
    · exact kept t hold
  | processTask task attempt =>
    obtain ⟨_, h⟩ := Option.ite_none_right_eq_some.mp h
    cases Option.some.inj h
    exact fun t ht => kept t (List.mem_of_mem_erase ht)

theorem failedWork_mono (h : contentionNext maxAttempts s step = some s') {k : TaskId}
    (hk : k ∈ s.failedWork) : k ∈ s'.failedWork := by
  cases step with
  | createJob | createRefreshTasks | claimTasks =>
    cases Option.some.inj h
    exact hk
  | processTask task attempt =>
    obtain ⟨_, h⟩ := Option.ite_none_right_eq_some.mp h
    cases Option.some.inj h
    show k ∈ if attempt.processTask.failedWork then task.id :: s.failedWork else s.failedWork
    split
    · exact List.mem_cons_of_mem _ hk
    · exact hk

/-- A domain that was inactive before keeps the task that answers for it. -/
theorem answered_kept (harmless : ContentionHarmless s)
    (h : contentionNext maxAttempts s step = some s')
    (hd : ∃ old ∈ s.db.domains.rows, old.id = d.id ∧ old.isActive = false) :
    ∃ t ∈ s'.db.tasks.rows, t.domainId = d.id ∧ t.id ∈ s'.failedWork := by
  obtain ⟨old, hold, hid, inactive⟩ := hd
  obtain ⟨t, ht, hdomain, hworked⟩ := harmless.deactivated old hold inactive
  obtain ⟨t', ht', hid', hdomain'⟩ := contention_row h ht
  exact ⟨t', ht', (hdomain'.trans hdomain).trans hid, hid' ▸ failedWork_mono h hworked⟩

theorem harmless_createJob (harmless : ContentionHarmless s) (sub : Submission)
    (h : contentionNext maxAttempts s (.createJob sub) = some s') : ContentionHarmless s' := by
  have stepped := h
  cases Option.some.inj h
  refine ⟨?_, fun d hd inactive => answered_kept harmless stepped (inactive_of_createJob hd inactive)⟩
  intro t ht hx
  rcases createJob_cases sub s.db with same | ⟨new, hnew, _, _, _, hins⟩
  · exact harmless.exhausted t (by rw [← same]; exact ht) hx
  · rw [Table.insert_rows hins] at ht
    rcases List.mem_append.mp ht with hold | hnew'
    · exact harmless.exhausted t hold hx
    · rcases hnew.shape t hnew' with hp | ⟨_, message, he⟩
      · simp [Task.exhausted, hp] at hx
      · simp [Task.exhausted, he] at hx

theorem harmless_createRefreshTasks (harmless : ContentionHarmless s) (uuid : DomainId → TaskId)
    (domainIds : List DomainId) (now : Instant)
    (h : contentionNext maxAttempts s (.createRefreshTasks uuid domainIds now) = some s') :
    ContentionHarmless s' := by
  have stepped := h
  cases Option.some.inj h
  refine ⟨?_, fun d hd inactive => answered_kept harmless stepped ⟨d, hd, rfl, inactive⟩⟩
  intro t ht hx
  cases hc : createRefreshTasks uuid domainIds now s.db.tasks with
  | none =>
    simp only [hc, Option.getD_none] at ht
    exact harmless.exhausted t ht hx
  | some after =>
    obtain ⟨created, hcreated, hins⟩ := Option.bind_eq_some_iff.mp hc
    simp only [hc, Option.getD_some] at ht
    rw [Table.insert_rows hins] at ht
    rcases List.mem_append.mp ht with hold | hnew
    · exact harmless.exhausted t hold hx
    · obtain ⟨id, domainId, rfl⟩ := refreshTasksFor_shape hcreated hnew
      cases hx

theorem harmless_claimTasks (harmless : ContentionHarmless s) (limit : Int) (lease : Instant)
    (taskTypes : Option (List TaskType)) (now : Instant)
    (h : contentionNext maxAttempts s (.claimTasks limit lease taskTypes now) = some s') :
    ContentionHarmless s' := by
  have stepped := h
  cases Option.some.inj h
  refine ⟨?_, fun d hd inactive => answered_kept harmless stepped ⟨d, hd, rfl, inactive⟩⟩
  intro t ht hx
  obtain ⟨row, hrow, _, _, hclaimed, hkept⟩ := mem_claimTasks ht
  by_cases hs : row ∈ claimSelection limit taskTypes s.db.tasks.rows
  · rw [hclaimed hs] at hx
    cases hx
  · rw [hkept hs] at hx ⊢
    exact harmless.exhausted row hrow hx

theorem harmless_processTask (harmless : ContentionHarmless s) (known : HandsKnown s) {task : Task}
    {attempt : Attempt} (h : contentionNext maxAttempts s (.processTask task attempt) = some s')
    (tolerable : LockFailureTolerable maxAttempts s (.processTask task attempt)) :
    ContentionHarmless s' := by
  have stepped := h
  obtain ⟨⟨hm, hd⟩, h⟩ := Option.ite_none_right_eq_some.mp h
  cases Option.some.inj h
  -- a write that is not plain follows failed work, or a failed lock that the condition covers
  have answered : attempt.processTask.write.plain = false →
      ∀ row ∈ s.db.tasks.rows, row.id = task.id → maxAttempts ≤ row.attempts →
        row.id ∈ if attempt.processTask.failedWork then task.id :: s.failedWork else s.failedWork := by
    intro notPlain row hrow hid hx
    by_cases hw : attempt.processTask.failedWork = true
    · rw [if_pos hw, hid]
      exact List.mem_cons_self
    · have failed : attempt.lockFailed = true := by
        by_contra hl
        have plain := Attempt.processTask_plain hd (by simpa using hl) (by simpa using hw)
        rw [plain] at notPlain
        cases notPlain
      rw [if_neg hw]
      rcases tolerable failed row hrow hid with hlt | hworked
      · omega
      · exact hworked
  refine ⟨?_, ?_⟩
  · intro t ht hx
    rw [WorkerWrite.apply_tasks] at ht
    obtain ⟨row, hrow, rfl⟩ := Table.mem_set.mp ht
    by_cases hk : row.id = task.id
    · rw [if_pos hk] at hx ⊢
      rw [WorkerWrite.row_id]
      rcases WorkerWrite.exhausts hx with before | ⟨notPlain, hmax⟩
      · exact failedWork_mono stepped (harmless.exhausted row hrow before)
      · exact answered notPlain row hrow hk hmax
    · rw [if_neg hk] at hx ⊢
      exact failedWork_mono stepped (harmless.exhausted row hrow hx)
  · intro d hd' inactive
    rcases WorkerWrite.deactivates hd' inactive with old | ⟨error, failure, now, hwrite, hdomain⟩ |
      ⟨row, hrow, hid, hmax, hdomain, notPlain⟩
    · exact answered_kept harmless stepped old
    · obtain ⟨row, hrow, hid, hsame⟩ := known task hm
      obtain ⟨row', hrow', hid', hdomain'⟩ := contention_row stepped hrow
      refine ⟨row', hrow', (hdomain'.trans hsame).trans hdomain.symm, ?_⟩
      have worked : attempt.processTask.failedWork = true := by
        by_contra hw
        by_cases hl : attempt.lockFailed = true
        · obtain ⟨⟨error', hresched⟩, _⟩ := Attempt.lockFailed_reschedules hl
          rw [hwrite] at hresched
          cases hresched
        · have plain := Attempt.processTask_plain hd (by simpa using hl) (by simpa using hw)
          rw [hwrite] at plain
          cases plain
      show row'.id ∈ if attempt.processTask.failedWork then task.id :: s.failedWork else s.failedWork
      rw [if_pos worked, hid', hid]
      exact List.mem_cons_self
    · obtain ⟨row', hrow', hid', hdomain'⟩ := contention_row stepped hrow
      refine ⟨row', hrow', hdomain'.trans hdomain.symm, ?_⟩
      rw [hid']
      exact answered notPlain row hrow hid hmax

/-- Without the condition the failed lock itself exhausts the task. -/
theorem tolerable_of_harmless {task : Task} {attempt : Attempt}
    (h : contentionNext maxAttempts s (.processTask task attempt) = some s')
    (harmless : ContentionHarmless s') :
    LockFailureTolerable maxAttempts s (.processTask task attempt) := by
  obtain ⟨_, h⟩ := Option.ite_none_right_eq_some.mp h
  cases Option.some.inj h
  intro failed row hrow hid
  obtain ⟨⟨error, hwrite⟩, hw⟩ := Attempt.lockFailed_reschedules failed
  by_contra hnot
  rw [not_or, not_lt] at hnot
  have written : attempt.processTask.write.row maxAttempts row =
      exhaustRow maxAttempts error attempt.now row := by
    rw [hwrite, Attempt.reschedule, WorkerWrite.row, rescheduleRow, if_pos hnot.1]
  have member : exhaustRow maxAttempts error attempt.now row ∈
      (attempt.processTask.write.apply maxAttempts s.db task).tasks.rows := by
    rw [WorkerWrite.apply_tasks, ← written]
    exact Table.mem_set.mpr ⟨row, hrow, if_pos hid⟩
  have worked := harmless.exhausted _ member rfl
  simp only [hw, Bool.false_eq_true, if_false] at worked
  exact hnot.2 worked

theorem harmless_step_iff (inv : ContentionHarmless s ∧ HandsKnown s)
    (h : contentionNext maxAttempts s step = some s') :
    (ContentionHarmless s' ∧ HandsKnown s') ↔ LockFailureTolerable maxAttempts s step := by
  have known := handsKnown_step inv.2 h
  cases step with
  | createJob sub =>
    exact ⟨fun _ => trivial, fun _ => ⟨harmless_createJob inv.1 sub h, known⟩⟩
  | createRefreshTasks uuid domainIds now =>
    exact ⟨fun _ => trivial, fun _ => ⟨harmless_createRefreshTasks inv.1 uuid domainIds now h, known⟩⟩
  | claimTasks limit lease taskTypes now =>
    exact ⟨fun _ => trivial, fun _ => ⟨harmless_claimTasks inv.1 limit lease taskTypes now h, known⟩⟩
  | processTask task attempt =>
    exact ⟨fun after => tolerable_of_harmless h after.1,
      fun tolerable => ⟨harmless_processTask inv.1 inv.2 h tolerable, known⟩⟩

theorem contention_init : ContentionHarmless contentionInit ∧ HandsKnown contentionInit :=
  ⟨⟨by simp [contentionInit, Db.empty, Table.empty], by simp [contentionInit, Db.empty, Table.empty]⟩,
    by simp [HandsKnown, contentionInit]⟩

/-- Lock contention is harmless in all states of a run exactly when every failed
lock meets a task with attempts left or with failed work behind it. -/
theorem contention_harmless_iff {trace : List (ContentionState × ContentionStep)}
    (run : Run (contentionNext maxAttempts) contentionInit trace s) :
    ((∀ p ∈ trace, ContentionHarmless p.1) ∧ ContentionHarmless s) ↔
      ∀ p ∈ trace, LockFailureTolerable maxAttempts p.1 p.2 := by
  have known := run.everywhere (P := HandsKnown) contention_init.2 handsKnown_step
  have last := run.invariant (P := HandsKnown) contention_init.2 handsKnown_step
  rw [← run.exact (P := fun u => ContentionHarmless u ∧ HandsKnown u)
    (LockFailureTolerable maxAttempts) contention_init harmless_step_iff]
  constructor
  · rintro ⟨before, after⟩
    exact ⟨fun p hp => ⟨before p hp, known p hp⟩, after, last⟩
  · rintro ⟨before, after⟩
    exact ⟨fun p hp => (before p hp).1, after.1⟩

/-- An attempt on a reachable domain that gets the given answer from Redis. -/
def lockAttempt (now : Instant) (lock : LockAnswer) : Attempt where
  now := now
  draw := .unjittered now
  domainFound := true
  freshBefore := false
  lock := lock
  freshAfter := false
  dns := ⟨["93.184.216.34"], [], none, none⟩
  validate := fun ip => ⟨true, ip, none⟩
  probe := .ok ⟨200, [], 10, none, none⟩
  persisted := .ok ()

def firstCopy : Task := claimRow 120 0 (oneTaskSubmission.pendingTask 1 11)

def secondCopy : Task := claimRow 120 2 (retryRow "Lock contention" 1 (.unjittered 1) firstCopy)

def thirdCopy : Task := claimRow 120 4 (retryRow "Lock contention" 3 (.unjittered 3) secondCopy)

/-- The lock is held at the first attempt and free at the second. -/
def contendedSteps : List ContentionStep :=
  [.createJob oneTaskSubmission, .claimTasks 1 120 none 0,
    .processTask firstCopy (lockAttempt 1 .held), .claimTasks 1 120 none 2,
    .processTask secondCopy (lockAttempt 3 .acquired)]

theorem contention_harmless_iff_contended :
    ∃ s, exec (contentionNext 3) contentionInit contendedSteps = some s ∧
      s.db.tasks.rows.map Task.status = [.completed] ∧ ContentionHarmless s := by
  have enabled : (exec (contentionNext 3) contentionInit contendedSteps).map
      (fun s => s.db.tasks.rows.map Task.status) = some [.completed] := by decide
  have guard : ∀ p ∈ steps (contentionNext 3) contentionInit contendedSteps,
      LockFailureTolerable 3 p.1 p.2 := by decide
  obtain ⟨s, hs, completed⟩ := Option.map_eq_some_iff.mp enabled
  exact ⟨s, hs, completed, ((contention_harmless_iff (exec_run hs)).mpr guard).2⟩

/-- Three failed locks in a row fail the task and deactivate its domain, though
no attempt has done any work. -/
theorem contention_harmless_fails :
    ∃ s, exec (contentionNext 3) contentionInit
        [.createJob oneTaskSubmission, .claimTasks 1 120 none 0,
          .processTask firstCopy (lockAttempt 1 .held), .claimTasks 1 120 none 2,
          .processTask secondCopy (lockAttempt 3 .held), .claimTasks 1 120 none 4,
          .processTask thirdCopy (lockAttempt 5 (.setRaised "Connection refused"))] = some s ∧
      s.failedWork = [] ∧ s.db.tasks.rows.map Task.exhausted = [true] ∧
      s.db.domains.rows.map Domain.isActive = [false] ∧ ¬ContentionHarmless s := by
  have reached : (exec (contentionNext 3) contentionInit
      [.createJob oneTaskSubmission, .claimTasks 1 120 none 0,
        .processTask firstCopy (lockAttempt 1 .held), .claimTasks 1 120 none 2,
        .processTask secondCopy (lockAttempt 3 .held), .claimTasks 1 120 none 4,
        .processTask thirdCopy (lockAttempt 5 (.setRaised "Connection refused"))]).map
      (fun s => (s.failedWork, s.db.tasks.rows.map Task.exhausted,
        s.db.domains.rows.map Domain.isActive)) = some ([], [true], [false]) := by decide
  obtain ⟨s, hs, he⟩ := Option.map_eq_some_iff.mp reached
  obtain ⟨hw, hx, hd⟩ : s.failedWork = [] ∧ s.db.tasks.rows.map Task.exhausted = [true] ∧
      s.db.domains.rows.map Domain.isActive = [false] := by simpa using he
  refine ⟨s, hs, hw, hx, hd, ?_⟩
  intro harmless
  obtain ⟨t, ht, hexhausted⟩ : ∃ t ∈ s.db.tasks.rows, t.exhausted = true := by
    apply List.mem_map.mp
    rw [hx]
    exact List.mem_singleton_self _
  have worked := harmless.exhausted t ht hexhausted
  rw [hw] at worked
  cases worked

end DomainProcessing
