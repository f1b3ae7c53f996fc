import DomainProcessing.TaskExits

namespace DomainProcessing

open Tables

/-- What `process_task` returns. -/
structure ProcessingResult where
  status : TaskStatus
  error : Option String
  errorCategory : Option ErrorCategory
  dnsResult : Option DnsResult
  httpResult : Option HttpResult
  ipValidation : Option IpValidationResult

namespace ProcessingResult

def completed : ProcessingResult := ⟨.completed, none, none, none, none, none⟩

def pending (error : Option String) : ProcessingResult := ⟨.pending, error, some .retryable, none, none, none⟩

def failed (error : Option String) (category : ErrorCategory) : ProcessingResult :=
  ⟨.failed, error, some category, none, none, none⟩

end ProcessingResult

namespace Attempt

variable (a : Attempt)

def exceptionResult (e : Raised) : ProcessingResult :=
  if classifyException e.kind = .retryable then .pending (some e.text) else .failed (some e.text) .permanent

def dnsFailureResult : ProcessingResult :=
  if truthy a.dns.error then
    exceptionResult ⟨.frozenInstanceError, "cannot assign to field 'classification'"⟩
  else if dnsClassification = "permanent" then
    { ProcessingResult.failed a.dns.error .permanent with dnsResult := some a.dns }
  else { ProcessingResult.pending a.dns.error with dnsResult := some a.dns }

def httpFailureResult (http : HttpResult) : ProcessingResult :=
  if http.isRetryableError then { ProcessingResult.pending http.error with httpResult := some http }
  else if http.isPermanentFailure then
    let message := if truthy http.error then s!"HTTP {http.statusCode}: {formatted http.error}"
      else s!"HTTP {http.statusCode}"
    { ProcessingResult.failed (some message) .permanent with httpResult := some http }
  else { ProcessingResult.completed with httpResult := some http }

def serverResult : ProcessingResult :=
  match a.probe with
  | .error e => exceptionResult e
  | .ok http =>
    if http.isSuccess then
      match a.persisted with
      | .error e => exceptionResult e
      | .ok () => { ProcessingResult.completed with dnsResult := some a.dns, httpResult := some http }
    else httpFailureResult http

def probeResult : ProcessingResult :=
  if a.dns.isSuccess then
    match a.validateIps with
    | .error e => exceptionResult e
    | .ok validation =>
      if validation.isAllowed then a.serverResult
      else
        { ProcessingResult.failed (some "SSRF rejection") .security with ipValidation := some validation }
  else a.dnsFailureResult

/-- The return value of the run whose write is `processTask`. -/
def result : ProcessingResult :=
  if a.domainFound then
    if a.freshBefore then .completed
    else
      match a.lock with
      | .connectRaised text => exceptionResult ⟨.redisError, text⟩
      | .held | .setRaised _ => .pending (some "Lock contention")
      | .acquired => if a.freshAfter then .completed else a.probeResult
  else .failed (some "Domain not found") .permanent

/-- A result and the write that goes with it. -/
inductive Reports : WorkerWrite → ProcessingResult → Prop
  | complete {now result} : result.status = .completed → result.errorCategory = none →
      Reports (.complete now) result
  | fail {error now result} : result.status = .failed → result.error = some error →
      result.errorCategory = some .permanent → Reports (.fail error now) result
  | failWithDeactivation {error failure now result} : result.status = .failed →
      result.error = some error → result.errorCategory = some failure.category →
      Reports (.failWithDeactivation error failure now) result
  | reschedule {error now draw result} : result.status = .pending →
      result.errorCategory = some .retryable → Reports (.reschedule error now draw) result
  | nothing {result} : result.status = .completed → result.errorCategory = none → Reports .nothing result

variable {a}

theorem reports_exception (e : Raised) : Reports (a.handleException e) (exceptionResult e) := by
  unfold handleException exceptionResult
  split
  · exact .reschedule rfl rfl
  · exact .fail rfl rfl rfl

theorem reports_dnsFailure : Reports a.handleDnsFailure a.dnsFailureResult := by
  unfold handleDnsFailure dnsFailureResult
  split
  · exact reports_exception _
  · exact .reschedule rfl rfl

theorem reports_httpFailure (http : HttpResult) :
    Reports (a.handleHttpFailure http) (httpFailureResult http) := by
  unfold handleHttpFailure httpFailureResult
  split
  · exact .reschedule rfl rfl
  · split
    · exact .failWithDeactivation rfl rfl rfl
    · exact .nothing rfl rfl

theorem reports_server : Reports a.probeServer.write a.serverResult := by
  unfold probeServer serverResult
  cases a.probe with
  | error e => exact reports_exception e
  | ok http =>
    dsimp only
    split
    · cases a.persisted with
      | error e => exact reports_exception e
      | ok _ => exact .complete rfl rfl
    · exact reports_httpFailure http

theorem reports_probe : Reports a.probeDomain.write a.probeResult := by
  unfold probeDomain probeResult
  split
  · cases a.validateIps with
    | error e => exact reports_exception e
    | ok validation =>
      dsimp only
      split
      · exact reports_server
      · exact .failWithDeactivation rfl rfl rfl
  · exact reports_dnsFailure

/-- Every exit of `process_task` reports its own write. -/
theorem reports (a : Attempt) : Reports a.processTask.write a.result := by
  unfold processTask result
  split
  · split
    · exact .complete rfl rfl
    · cases a.lock with
      | connectRaised text => exact reports_exception ⟨.redisError, text⟩
      | held | setRaised => exact .reschedule rfl rfl
      | acquired =>
        dsimp only
        split
        · exact .complete rfl rfl
        · exact reports_probe
  · exact .fail rfl rfl rfl

end Attempt

/-- The row that a failure is reported for. -/
def ReportedFailure (result : ProcessingResult) (after : Task) : Prop :=
  after.status = .failed ∧ ∃ payload, after.errorPayload = some payload ∧
    result.error = some payload.message ∧
    result.errorCategory.map ErrorCategory.errorCode = some payload.code ∧ payload.retryable = false

/-- The row that waits for its next attempt. -/
def WaitingAgain (after : Task) : Prop :=
  after.status = .pending ∧ after.leaseExpiresAt = none ∧
    ∃ payload, after.errorPayload = some payload ∧ payload.retryable = true

/-- What the row is like after `process_task` has returned a result. -/
def LeftBy (maxAttempts : Nat) (unwritten : Prop) (result : ProcessingResult) (row after : Task) : Prop :=
  match result.status with
  | .failed => ReportedFailure result after
  | .pending => (row.attempts < maxAttempts → WaitingAgain after) ∧
      (maxAttempts ≤ row.attempts → after.status = .failed ∧
        ∃ message, after.errorPayload = some (maxAttemptsExceeded message))
  | .completed => (¬unwritten → after.status = .completed) ∧ (unwritten → after = row)
  | .processing => False

theorem leftBy_write {maxAttempts : Nat} {write : WorkerWrite} {result : ProcessingResult} (row : Task)
    (reports : Attempt.Reports write result) :
    LeftBy maxAttempts (write = .nothing) result row (write.row maxAttempts row) := by
  unfold LeftBy
  cases reports with
  | complete status =>
    rw [status]
    exact ⟨fun _ => rfl, fun unwritten => by cases unwritten⟩
  | fail status error category =>
    rw [status]
    refine ⟨rfl, _, rfl, error, ?_, rfl⟩
    rw [category]
    rfl
  | @failWithDeactivation _ failure _ _ status error category =>
    rw [status]
    refine ⟨rfl, _, rfl, error, ?_, ?_⟩
    · rw [category]
      rfl
    · cases failure <;> rfl
  | reschedule status =>
    rw [status]
    refine ⟨fun remaining => ?_, fun exhausted => ?_⟩
    · simp only [WorkerWrite.row, rescheduleRow, if_neg (not_le.mpr remaining)]
      exact ⟨rfl, rfl, _, rfl, rfl⟩
    · simp only [WorkerWrite.row, rescheduleRow, if_pos exhausted]
      exact ⟨rfl, _, rfl⟩
  | nothing status =>
    rw [status]
    exact ⟨fun written => absurd rfl written, fun _ => rfl⟩

/-- What the result says of the task is what is committed, apart from a task out
of attempts, which is reported as pending, and from a probe that matches none of
the predicates, which is reported as completed and not written. -/
theorem processingResult_committed {a : Attempt} {maxAttempts : Nat} {db : Db} {task row : Task}
    (stored : db.tasks.get task.id = some row) :
    ∃ after, (a.processTask.write.apply maxAttempts db task).tasks.get task.id = some after ∧
      LeftBy maxAttempts (a.probedAddress.isSome ∧ ∃ http, a.probe = .ok http ∧ http.Unmatched)
        a.result row after := by
  have written : (a.processTask.write.apply maxAttempts db task).tasks.get task.id =
      some (a.processTask.write.row maxAttempts row) := by
    rw [WorkerWrite.apply_tasks, Table.get_set, if_pos rfl, stored]
    rfl
  have left := @leftBy_write maxAttempts _ _ row a.reports
  rw [Attempt.processTask_eq_nothing_iff] at left
  exact ⟨_, written, left⟩

/-- A task in its last attempt meets a busy lock. -/
theorem processingResult_committed_exhausted :
    { rebindingAttempt with lock := .held }.result.status = .pending ∧
      ∃ after, ({ rebindingAttempt with lock := .held }.processTask.write.apply 1 claimedDb
        claimedTask).tasks.get claimedTask.id = some after ∧ after.status = .failed := by
  have stored : claimedDb.tasks.get claimedTask.id = some claimedTask := rfl
  have reported : { rebindingAttempt with lock := .held }.result.status = .pending := rfl
  obtain ⟨after, held, left⟩ := @processingResult_committed { rebindingAttempt with lock := .held } 1 _ _ _ stored
  unfold LeftBy at left
  rw [reported] at left
  exact ⟨reported, after, held, (left.2 (by decide)).1⟩

end DomainProcessing
