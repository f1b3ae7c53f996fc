import DomainProcessing.DomainProbing
import DomainProcessing.SsrfProtection
import Mathlib.Data.List.Infix

namespace DomainProcessing

open Tables

/-- What the statements of one `upsert_with_occ` find under the domain's key. -/
structure UpsertView where
  update : Option DomainDetail
  lookUp : Option DomainDetail
  insert : Option DomainDetail

/-- What the write phase finds under the domain's key, in the order of its
statements. Others may have inserted or updated the row before each of them,
and nobody deletes it. -/
structure WriteRace where
  versionRead : Option DomainDetail
  first : UpsertView
  reread : Option DomainDetail
  again : UpsertView
  kept : [versionRead, first.update, first.lookUp, first.insert, reread, again.update, again.lookUp,
    again.insert].Pairwise fun earlier later => earlier.isSome → later.isSome

inductive WriteError
  | runtimeError (text : String)
  | integrityError (text : String)
  deriving DecidableEq, Repr

/-- Neither class is one that `_classify_exception` knows. -/
def WriteError.raised : WriteError → Raised
  | .runtimeError text | .integrityError text => ⟨.other, text⟩

theorem WriteError.raised_kind (e : WriteError) : e.raised.kind = .other := by
  cases e <;> rfl

/-- `pattern in text` -/
def textContains (pattern text : String) : Bool := decide (pattern.toList <:+: text.toList)

def occConflictText (expected found : Int) : String :=
  s!"OCC conflict: expected version {expected}, found version {found}"

def duplicateKeyText : String := "duplicate key value violates unique constraint \"domain_detail_pkey\""

namespace UpsertView

/-- `upsert_with_occ`, where the session has or has not loaded the row before. -/
def upsert (view : UpsertView) (loaded : Bool) (detail : DomainDetail) (expected : Int) :
    Except WriteError DomainDetail :=
  if view.update.any fun row => decide (row.version = expected) then
    .ok { detail with version := expected + 1 }
  else
    match view.lookUp with
    | none =>
      match view.insert with
      | none => .ok { detail with version := 1 }
      | some _ => .error (.integrityError duplicateKeyText)
    | some existing =>
      .error (.runtimeError (occConflictText expected (if loaded then expected + 1 else existing.version)))

end UpsertView

namespace WriteRace

/-- The version of the row as the session has it when the first UPDATE has
missed: the row that the version read or else the lookup has loaded. -/
def retryVersion (race : WriteRace) : Int :=
  match race.first.lookUp with
  | none => 0
  | some found => sessionVersion race.versionRead found

/-- `_persist_domain_detail` from the version read on: a conflict of the first
upsert is retried once. The re-read says whether there still is a row, its
version is the one that the session has. -/
def persist (race : WriteRace) (detail : DomainDetail) : Except WriteError DomainDetail :=
  match race.first.upsert race.versionRead.isSome detail (expectedVersion race.versionRead) with
  | .ok row => .ok row
  | .error (.runtimeError text) =>
    if textContains "OCC conflict" text then
      match race.reread with
      | none => .error (.runtimeError text)
      | some _ => race.again.upsert true { detail with version := race.retryVersion + 1 } race.retryVersion
    else .error (.runtimeError text)
  | .error (.integrityError text) => .error (.integrityError text)

/-- How the write phase ends for `process_task`. -/
def outcome (race : WriteRace) (detail : DomainDetail) : Except Raised Unit :=
  match race.persist detail with
  | .ok _ => .ok ()
  | .error e => .error e.raised

/-- The first UPDATE finds no row of the version that was read. -/
def missed (race : WriteRace) : Bool :=
  !race.first.update.any fun row => decide (row.version = expectedVersion race.versionRead)

/-- Somebody inserts the row between the lookup that finds none and the INSERT. -/
def insertOvertaken (race : WriteRace) : Bool :=
  race.missed && race.first.lookUp.isNone && race.first.insert.isSome

/-- After a conflict, the second UPDATE finds the row in another version than the
session has. -/
def retryOvertaken (race : WriteRace) : Bool :=
  race.missed && race.first.lookUp.isSome && race.reread.isSome &&
    !race.again.update.any fun row => decide (row.version = race.retryVersion)

variable {race : WriteRace} {detail : DomainDetail}

theorem textContains_occConflict (expected found : Int) :
    textContains "OCC conflict" (occConflictText expected found) = true := by
  have start : "OCC conflict".toList <+: "OCC conflict: expected version ".toList := by decide
  rw [textContains, decide_eq_true_eq]
  show "OCC conflict".toList <:+: ("OCC conflict: expected version " ++ toString expected ++
    ", found version " ++ toString found).toList
  simp only [String.toList_append, List.append_assoc]
  exact (start.trans (List.prefix_append _ _)).isInfix

/-- A row that the lookup has found is there for the statements of the retry. -/
theorem found_again (found : race.first.lookUp.isSome) :
    race.reread.isSome ∧ race.again.lookUp.isSome := by
  have kept := race.kept
  simp only [List.pairwise_cons] at kept
  obtain ⟨_, _, later, _⟩ := kept
  exact ⟨later race.reread (by simp) found, later race.again.lookUp (by simp) found⟩

theorem persist_of_matched (h : race.missed = false) : ∃ row, race.persist detail = .ok row := by
  have matched : race.first.update.any (fun row => decide (row.version = expectedVersion race.versionRead)) =
      true := by simpa [missed] using h
  refine ⟨{ detail with version := expectedVersion race.versionRead + 1 }, ?_⟩
  rw [persist, UpsertView.upsert, if_pos matched]

theorem first_of_missed (detail : DomainDetail) (h : race.missed = true) :
    race.first.upsert race.versionRead.isSome detail (expectedVersion race.versionRead) =
    match race.first.lookUp with
    | none =>
      match race.first.insert with
      | none => .ok { detail with version := 1 }
      | some _ => .error (.integrityError duplicateKeyText)
    | some existing =>
      .error (.runtimeError (occConflictText (expectedVersion race.versionRead)
        (if race.versionRead.isSome then expectedVersion race.versionRead + 1 else existing.version))) := by
  have missed : ¬race.first.update.any (fun row => decide (row.version = expectedVersion race.versionRead)) =
      true := by simpa [missed] using h
  rw [UpsertView.upsert, if_neg missed]

/-- The write phase raises when somebody overtakes its INSERT or its retry. -/
theorem persist_isOk_iff (detail : DomainDetail) : (∃ row, race.persist detail = .ok row) ↔
    race.insertOvertaken = false ∧ race.retryOvertaken = false := by
  by_cases missed : race.missed = true
  · have first := first_of_missed detail missed
    cases absent : race.first.lookUp with
    | none =>
      rw [absent] at first
      cases unique : race.first.insert with
      | none =>
        simp only [unique] at first
        simp [persist, first, insertOvertaken, retryOvertaken, absent, unique]
      | some row =>
        simp only [unique] at first
        simp [persist, first, insertOvertaken, missed, absent, unique]
    | some found =>
      obtain ⟨rereadFound, againFound⟩ := race.found_again (by simp [absent])
      obtain ⟨existing, reread⟩ := Option.isSome_iff_exists.mp rereadFound
      obtain ⟨other, again⟩ := Option.isSome_iff_exists.mp againFound
      simp only [absent] at first
      simp only [persist, first, textContains_occConflict, if_true, reread, insertOvertaken, retryOvertaken,
        missed, absent, Option.isSome_some]
      by_cases same : race.again.update.any (fun row => decide (row.version = race.retryVersion)) = true
      · simp [UpsertView.upsert, same]
      · simp [UpsertView.upsert, same, again]
  · have matched : race.missed = false := by simpa using missed
    simp [persist_of_matched matched, insertOvertaken, retryOvertaken, matched]

/-- With nobody in between, the write phase is the upsert with its retry on one row. -/
theorem persist_undisturbed {current : Option DomainDetail} (first : race.first = ⟨current, current, current⟩)
    (reread : race.reread = current) (again : race.again = ⟨current, current, current⟩) {row : DomainDetail} :
    race.persist detail = .ok row ↔ persistDomainDetail detail race.versionRead current = some row := by
  simp only [persist, persistDomainDetail, retryVersion, first, reread, again, UpsertView.upsert]
  cases current with
  | none => simp [upsertWithOcc]
  | some existing =>
    by_cases same : existing.version = expectedVersion race.versionRead
    · simp [upsertWithOcc, same]
    · by_cases retried : existing.version = sessionVersion race.versionRead existing
      · simp [upsertWithOcc, same, textContains_occConflict, ← retried]
      · simp [upsertWithOcc, same, textContains_occConflict, retried]

end WriteRace

/-- Completed, to be tried again, or out of attempts. -/
def Task.CompletedOrRetried (t : Task) : Prop :=
  t.status = .completed ∨ t.status = .pending ∨
    t.status = .failed ∧ ∃ message, t.errorPayload = some (maxAttemptsExceeded message)

theorem completeRow_settles (now : Instant) (t : Task) :
    (completeRow .completed now t).CompletedOrRetried := Or.inl rfl

theorem failRow_unsettled (error : String) (now : Instant) (t : Task) :
    ¬(failRow error .permanent now t).CompletedOrRetried := by
  rintro (completed | pending | ⟨_, message, payload⟩)
  · cases completed
  · cases pending
  · have code := congrArg ErrorPayload.code (Option.some.inj payload)
    exact absurd code (by decide : ErrorCategory.errorCode .permanent ≠ "MAX_ATTEMPTS_EXCEEDED")

section Pipeline

variable {a : Attempt} {race : WriteRace} {detail : DomainDetail} {http : HttpResult}

/-- A task that comes to its write phase is completed, or failed for good when
the write phase raises. -/
theorem processTask_of_race (probed : a.probedAddress.isSome) (answer : a.probe = .ok http)
    (success : http.isSuccess = true) (written : a.persisted = race.outcome detail) :
    (∃ row, race.persist detail = .ok row) ∧ a.processTask.write = .complete a.now ∨
      (¬∃ row, race.persist detail = .ok row) ∧ ∃ error, a.processTask.write = .fail error a.now := by
  rw [Attempt.processTask_of_probed probed]
  simp only [Attempt.probeServer, answer, success, if_true]
  cases ended : race.persist detail with
  | ok row =>
    have fine : a.persisted = .ok () := by simp only [written, WriteRace.outcome, ended]
    exact Or.inl ⟨⟨row, rfl⟩, by rw [fine]⟩
  | error e =>
    have raised : a.persisted = .error e.raised := by simp only [written, WriteRace.outcome, ended]
    have permanent : classifyException e.raised.kind ≠ .retryable := by
      rw [e.raised_kind]
      decide
    refine Or.inr ⟨by simp, e.raised.text, ?_⟩
    rw [raised]
    exact if_neg permanent

/-- A lost race fails the task for good exactly when it is lost at the INSERT
or at the retry. -/
theorem lost_race_recovers_iff {maxAttempts : Nat} {db : Db} {task row : Task}
    (probed : a.probedAddress.isSome) (answer : a.probe = .ok http) (success : http.isSuccess = true)
    (written : a.persisted = race.outcome detail) (stored : db.tasks.get task.id = some row) :
    (∃ after, (a.processTask.write.apply maxAttempts db task).tasks.get task.id = some after ∧
      after.CompletedOrRetried) ↔ race.insertOvertaken = false ∧ race.retryOvertaken = false := by
  have left : (a.processTask.write.apply maxAttempts db task).tasks.get task.id =
      some (a.processTask.write.row maxAttempts row) := by
    rw [WorkerWrite.apply_tasks, Table.get_set, if_pos rfl, stored]
    rfl
  rw [← WriteRace.persist_isOk_iff detail, left]
  rcases processTask_of_race probed answer success written with ⟨persisted, complete⟩ | ⟨raised, error, fail⟩
  · rw [complete]
    exact iff_of_true ⟨_, rfl, completeRow_settles _ _⟩ persisted
  · rw [fail]
    refine iff_of_false ?_ raised
    rintro ⟨after, same, settled⟩
    cases Option.some.inj same
    exact failRow_unsettled error a.now row settled

end Pipeline

/-- The row that another worker has stored, in the given version. -/
def rivalDetail (version : Int) : DomainDetail :=
  { domainId := 11, ipAddresses := [], dnsRecords := [], httpStatus := 200, pageTitle := none, responseTime := 5,
    responseHeaders := [], fetchedAt := 4, nextRefreshAt := 5, version := version }

/-- Another worker inserts the row after this one has found none. -/
def insertRace : WriteRace :=
  ⟨none, ⟨none, none, some (rivalDetail 1)⟩, some (rivalDetail 1),
    ⟨some (rivalDetail 1), some (rivalDetail 1), some (rivalDetail 1)⟩, by simp⟩

/-- Other workers have updated the row before the first UPDATE of this one and
before its retry, each time to the given version. -/
def updateRace (atFirst atRetry : Int) : WriteRace :=
  ⟨some (rivalDetail 1), ⟨some (rivalDetail atFirst), some (rivalDetail atFirst), some (rivalDetail atFirst)⟩,
    some (rivalDetail atFirst),
    ⟨some (rivalDetail atRetry), some (rivalDetail atRetry), some (rivalDetail atRetry)⟩, by simp⟩

def racingAttempt (race : WriteRace) : Attempt :=
  { rebindingAttempt with persisted := race.outcome (rivalDetail 0) }

/-- The first attempt out of three fails as a permanent error. -/
def WriteRace.FailsForGood (race : WriteRace) : Prop :=
  (((racingAttempt race).processTask.write.apply 3 claimedDb claimedTask).tasks.get 1).map
    (fun t => (t.status, t.errorPayload.map ErrorPayload.code)) = some (.failed, some "PERMANENT_ERROR")

/-- The ways to lose the race for good: at the INSERT, to a commit before the retry, and
to two commits before the first UPDATE. -/
theorem lost_race_permanent :
    insertRace.FailsForGood ∧ (updateRace 2 3).FailsForGood ∧ (updateRace 3 3).FailsForGood := by
  unfold WriteRace.FailsForGood
  decide +kernel

theorem lost_race_recovers_retried :
    ∃ after, ((racingAttempt (updateRace 2 2)).processTask.write.apply 3 claimedDb claimedTask).tasks.get 1 =
      some after ∧ after.CompletedOrRetried := by
  have probed : (racingAttempt (updateRace 2 2)).probedAddress.isSome := by decide +kernel
  have stored : claimedDb.tasks.get claimedTask.id = some claimedTask := rfl
  have written : (racingAttempt (updateRace 2 2)).persisted = (updateRace 2 2).outcome (rivalDetail 0) := rfl
  refine (lost_race_recovers_iff probed rfl (by decide) written stored).mpr ?_
  decide

end DomainProcessing
