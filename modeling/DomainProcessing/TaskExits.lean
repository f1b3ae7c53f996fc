import DomainProcessing.SsrfProtection

namespace DomainProcessing

open Tables

/-- A status code that neither succeeds nor is looked at by the failure
handler: not 2xx, 3xx or 5xx, and no 4xx apart from 408 and 429. -/
def UnmatchedStatus (code : Int) : Prop := code < 200 ∨ 600 ≤ code ∨ code = 408 ∨ code = 429

/-- No error is reported and the status code matches nothing. A success needs
an error of `None`, the failure handler ignores an empty one as well. -/
def HttpResult.Unmatched (r : HttpResult) : Prop :=
  truthy r.error = false ∧
    (UnmatchedStatus r.statusCode ∨ r.error = some "" ∧ 200 ≤ r.statusCode ∧ r.statusCode < 400)

theorem truthy_eq_false_iff {text : Option String} : truthy text = false ↔ text = none ∨ text = some "" := by
  cases text with
  | none => simp [truthy]
  | some e => simp [truthy]

theorem HttpResult.unmatched_iff {r : HttpResult} :
    r.Unmatched ↔ r.isSuccess = false ∧ r.isRetryableError = false ∧ r.isPermanentFailure = false := by
  unfold HttpResult.Unmatched
  cases hr : truthy r.error with
  | true => simp [HttpResult.isRetryableError, hr]
  | false =>
    rcases truthy_eq_false_iff.mp hr with missing | empty
    · simp only [UnmatchedStatus, missing, HttpResult.isSuccess, HttpResult.isRetryableError,
        HttpResult.isPermanentFailure, HttpResult.isServerError, HttpResult.isClientError, truthy]
      simp
      omega
    · simp only [UnmatchedStatus, empty, HttpResult.isSuccess, HttpResult.isRetryableError,
        HttpResult.isPermanentFailure, HttpResult.isServerError, HttpResult.isClientError, truthy]
      simp
      omega

namespace Attempt

variable {a : Attempt}

theorem reschedule_ne_nothing (error : String) : a.reschedule error ≠ .nothing := by
  intro h
  cases h

theorem handleException_ne_nothing (e : Raised) : a.handleException e ≠ .nothing := by
  unfold handleException
  split
  · exact reschedule_ne_nothing e.text
  · intro h
    cases h

theorem handleDnsFailure_ne_nothing : a.handleDnsFailure ≠ .nothing := by
  unfold handleDnsFailure
  split
  · exact handleException_ne_nothing _
  · split
    · intro h
      cases h
    · exact reschedule_ne_nothing _

/-- The last branch of the failure handler is taken for the results that the
two predicates before it miss. -/
theorem handleHttpFailure_eq_nothing_iff {http : HttpResult} : a.handleHttpFailure http = .nothing ↔
    http.isRetryableError = false ∧ http.isPermanentFailure = false := by
  unfold handleHttpFailure
  split
  next retryable =>
    have other : a.reschedule s!"HTTP error: {formatted http.error}" ≠ .nothing :=
      reschedule_ne_nothing _
    simp [other, retryable]
  next transient =>
    split
    next permanent => simp [permanent]
    next unmatched => simp_all

theorem processTask_of_not_looksUp (h : ¬a.looksUp = true) : a.processTask.write ≠ .nothing := by
  unfold processTask
  split
  next found =>
    split
    next => simp
    next stale =>
      cases locked : a.lock with
      | acquired =>
        have again : a.freshAfter = true := by
          simpa [looksUp, found, stale, locked] using h
        simp [again]
      | held | setRaised => exact reschedule_ne_nothing _
      | connectRaised text => exact handleException_ne_nothing (a := a) ⟨.redisError, text⟩
  next => simp

theorem probeServer_eq_nothing_iff : a.probeServer.write = .nothing ↔
    ∃ http, a.probe = .ok http ∧ http.Unmatched := by
  unfold probeServer
  cases answer : a.probe with
  | error e => simpa using handleException_ne_nothing e
  | ok http =>
    simp only [Except.ok.injEq, exists_eq_left', HttpResult.unmatched_iff]
    by_cases success : http.isSuccess = true
    · simp only [success, if_true, Bool.true_eq_false, false_and, iff_false]
      cases a.persisted with
      | error e => exact handleException_ne_nothing e
      | ok _ => simp
    · rw [if_neg success, handleHttpFailure_eq_nothing_iff]
      simp [success]

/-- Of all exits of `process_task` only the end of the HTTP failure handler
leaves without a write. -/
theorem processTask_eq_nothing_iff : a.processTask.write = .nothing ↔
    a.probedAddress.isSome ∧ ∃ http, a.probe = .ok http ∧ http.Unmatched := by
  by_cases probed : a.probedAddress.isSome
  · rw [processTask_of_probed probed, probeServer_eq_nothing_iff]
    exact (and_iff_right probed).symm
  · refine iff_of_false ?_ fun both => probed both.1
    by_cases looks : a.looksUp = true
    · rw [processTask_of_looksUp looks]
      unfold probeDomain
      by_cases resolved : a.dns.isSuccess = true
      · rw [if_pos resolved]
        cases validated : a.validateIps with
        | error e => exact handleException_ne_nothing e
        | ok validation =>
          have blocked : ¬validation.isAllowed = true := by
            intro allowed
            simp [probedAddress, looks, resolved, validatedIp, validated, allowed] at probed
          simp only [if_neg blocked]
          intro h
          cases h
      · rw [if_neg resolved]
        exact handleDnsFailure_ne_nothing
    · exact processTask_of_not_looksUp looks

end Attempt

theorem WorkerWrite.row_status {maxAttempts : Nat} {write : WorkerWrite} (h : write ≠ .nothing) (t : Task) :
    (write.row maxAttempts t).status ≠ .processing := by
  cases write with
  | complete | fail | failWithDeactivation => intro stays; cases stays
  | reschedule =>
    simp only [WorkerWrite.row, rescheduleRow]
    split
    · intro stays; cases stays
    · intro stays; cases stays
  | nothing => exact absurd rfl h

/-- A processed task stays in PROCESSING exactly when the probe is made and its
result matches none of the three predicates. -/
theorem processTask_leaves_processing_iff {a : Attempt} {maxAttempts : Nat} {db : Db} {task row : Task}
    (stored : db.tasks.get task.id = some row) (processing : row.status = .processing) :
    (∃ after, (a.processTask.write.apply maxAttempts db task).tasks.get task.id = some after ∧
      (after.status = .pending ∨ after.status = .completed ∨ after.status = .failed)) ↔
    (a.probedAddress.isSome → ∀ http, a.probe = .ok http → ¬http.Unmatched) := by
  have written : (a.processTask.write.apply maxAttempts db task).tasks.get task.id =
      some (a.processTask.write.row maxAttempts row) := by
    rw [WorkerWrite.apply_tasks, Table.get_set, if_pos rfl, stored]
    rfl
  have exits : a.processTask.write ≠ .nothing ↔
      (a.probedAddress.isSome → ∀ http, a.probe = .ok http → ¬http.Unmatched) := by
    rw [Ne, Attempt.processTask_eq_nothing_iff]
    simp
  rw [← exits, written]
  constructor
  · rintro ⟨after, same, left⟩ unwritten
    cases Option.some.inj same
    rw [unwritten, WorkerWrite.row, id_eq, processing] at left
    simp at left
  · intro exit
    have left : (a.processTask.write.row maxAttempts row).status ≠ .processing :=
      WorkerWrite.row_status exit row
    refine ⟨_, rfl, ?_⟩
    revert left
    cases (a.processTask.write.row maxAttempts row).status <;> simp

/-- A server that asks to come back later. -/
def rateLimitedAttempt : Attempt := { rebindingAttempt with probe := .ok ⟨429, [], 5, none, none⟩ }

theorem processTask_leaves_processing_rateLimited :
    rateLimitedAttempt.processTask.write = .nothing ∧
      ((rateLimitedAttempt.processTask.write.apply 3 claimedDb claimedTask).tasks.get 1).map Task.status =
        some .processing := by
  have unwritten : rateLimitedAttempt.processTask.write = .nothing := by
    rw [Attempt.processTask_eq_nothing_iff]
    refine ⟨by decide +kernel, _, rfl, ?_⟩
    exact ⟨rfl, Or.inl (Or.inr (Or.inr (Or.inr rfl)))⟩
  refine ⟨unwritten, ?_⟩
  rw [unwritten]
  rfl

theorem processTask_leaves_processing_success :
    ∃ after, (rebindingAttempt.processTask.write.apply 3 claimedDb claimedTask).tasks.get 1 = some after ∧
      (after.status = .pending ∨ after.status = .completed ∨ after.status = .failed) := by
  have stored : claimedDb.tasks.get claimedTask.id = some claimedTask := rfl
  refine (processTask_leaves_processing_iff stored rfl).mpr ?_
  intro _ http answer unmatched
  cases answer
  obtain ⟨_, code | empty⟩ := unmatched
  · simp [UnmatchedStatus] at code
  · simp at empty

end DomainProcessing
