import DomainProcessing.RefreshCompletion
import DomainProcessing.SsrfProtection
import Mathlib.Data.Finset.Card

namespace DomainProcessing

open Tables OrderedSelection Runs

namespace Attempt

/-- The result of the probe that the write phase commits, when it comes to that. -/
def observed (a : Attempt) : Option HttpResult :=
  match a.probedAddress, a.probe, a.persisted with
  | some _, .ok http, .ok () => if http.isSuccess then some http else none
  | _, _, _ => none

/-- The stored detail is found fresh, before or under the domain lock. -/
def reused (a : Attempt) : Bool :=
  a.domainFound && (a.freshBefore || decide (a.lock = .acquired) && a.freshAfter)

/-- The probe or the write phase ends in an exception classified as permanent,
or the server answers with a permanent failure. -/
def probeEndsInPlace (a : Attempt) : Bool :=
  match a.probe with
  | .error e => decide (classifyException e.kind = .permanent)
  | .ok http =>
    if http.isSuccess then
      match a.persisted with
      | .error e => decide (classifyException e.kind = .permanent)
      | .ok () => false
    else http.isPermanentFailure

/-- No resolved address is permitted, or the probe of the first that is ends in place. -/
def validationEndsInPlace (a : Attempt) : Bool :=
  match a.validateIps with
  | .error e => decide (classifyException e.kind = .permanent)
  | .ok _ => a.probeEndsInPlace

/-- The attempt meets what ends a task without a new `next_refresh_at` and
without a deactivation. -/
def endsInPlace (a : Attempt) : Bool :=
  a.reused || (a.looksUp &&
    if a.dns.isSuccess then a.validationEndsInPlace else truthy a.dns.error)

variable {a : Attempt}

theorem handleException_reschedules {e : Raised} (h : classifyException e.kind ≠ .permanent) :
    a.handleException e = a.reschedule e.text := by
  have retryable : classifyException e.kind = .retryable := by
    cases hk : e.kind <;> simp_all [classifyException]
  rw [handleException, if_pos retryable]

/-- The writes of an attempt that has moved its domain on or left its task open. -/
inductive Moved (a : Attempt) : WorkerWrite → Prop
  | nothing : Moved a .nothing
  | rescheduled (error : String) : Moved a (a.reschedule error)
  | observed : a.observed.isSome → Moved a (.complete a.now)

theorem moved_of_raised {e : Raised} (h : decide (classifyException e.kind = .permanent) = false) :
    a.Moved (a.handleException e) := by
  rw [handleException_reschedules (of_decide_eq_false h)]
  exact .rescheduled _

theorem moved_of_refused {http : HttpResult} (transient : http.isPermanentFailure = false) :
    a.Moved (a.handleHttpFailure http) := by
  unfold handleHttpFailure
  split
  next => exact .rescheduled _
  next =>
    rw [if_neg (by simp [transient])]
    exact .nothing

theorem moved_of_probed (probed : a.probedAddress.isSome) (moves : a.probeEndsInPlace = false) :
    a.Moved a.processTask.write := by
  obtain ⟨address, known⟩ := Option.isSome_iff_exists.mp probed
  rw [processTask_of_probed probed]
  unfold probeServer
  unfold probeEndsInPlace at moves
  cases answer : a.probe with
  | error e =>
    rw [answer] at moves
    exact moved_of_raised moves
  | ok http =>
    rw [answer] at moves
    by_cases success : http.isSuccess = true
    · simp only [success, if_true] at moves ⊢
      cases written : a.persisted with
      | error e =>
        rw [written] at moves
        exact moved_of_raised moves
      | ok _ =>
        have seen : a.observed = some http := by simp [observed, known, answer, written, success]
        exact .observed (by rw [seen]; rfl)
    · simp only [if_neg success] at moves ⊢
      exact moved_of_refused moves

theorem moved_of_resolved (looks : a.looksUp = true) (resolved : a.dns.isSuccess = true)
    (moves : a.validationEndsInPlace = false) : a.Moved a.processTask.write := by
  unfold validationEndsInPlace at moves
  cases validated : a.validateIps with
  | error e =>
    rw [validated] at moves
    rw [processTask_of_looksUp looks, probeDomain, if_pos resolved, validated]
    exact moved_of_raised moves
  | ok validation =>
    rw [validated] at moves
    have allowed := allowed_of_validateIps resolved validated
    refine moved_of_probed ?_ moves
    simp [probedAddress, looks, resolved, validatedIp, validated, allowed]

theorem processTask_moved (found : a.domainFound = true) (h : a.endsInPlace = false) :
    a.Moved a.processTask.write := by
  simp only [endsInPlace, Bool.or_eq_false_iff] at h
  obtain ⟨renewed, moves⟩ := h
  by_cases looks : a.looksUp = true
  · rw [looks, Bool.true_and] at moves
    by_cases resolved : a.dns.isSuccess = true
    · rw [if_pos resolved] at moves
      exact moved_of_resolved looks resolved moves
    · rw [if_neg resolved] at moves
      rw [processTask_of_looksUp looks, probeDomain, if_neg resolved]
      show a.Moved a.handleDnsFailure
      rw [handleDnsFailure, if_neg (by simp [moves]), if_neg (by decide)]
      exact .rescheduled _
  · simp only [reused, found, Bool.true_and, Bool.or_eq_false_iff] at renewed
    obtain ⟨stale, still⟩ := renewed
    have unlocked : a.lock ≠ .acquired := by
      intro locked
      simp [looksUp, found, stale, locked] at looks
      simp [locked, looks] at still
    obtain ⟨⟨error, rescheduled⟩, _⟩ :=
      lockFailed_reschedules (a := a) (by simp [lockFailed, found, stale, unlocked])
    rw [rescheduled]
    exact .rescheduled error

end Attempt

/-- The database with the ids of the refresh tasks that the ticks have created. -/
structure RefreshState where
  now : Instant
  db : Db
  created : List TaskId
  ticks : Nat

/-- What a worker has read and been told is part of an attempt, so that attempts
may overlap; its writes are one step. -/
inductive RefreshStep
  | elapse (duration : Nat)
  | tick (rows : List DomainDetail) (uuid : DomainId → TaskId)
  | claim (limit : Int) (leaseExpiresAt now : Instant) (taskTypes : Option (List TaskType))
  | attempt (taskId : TaskId) (a : Attempt) (existing : Option DomainDetail)
  | recover (limit : Int) (now updatedAt : Instant) (draws : TaskId → RetryDraw)

namespace RefreshState

def init (now : Instant) (db : Db) : RefreshState := ⟨now, db, [], 0⟩

/-- The domain is active and its `next_refresh_at` is reached. -/
def due (s : RefreshState) (domainId : DomainId) : Bool :=
  (s.db.details.get domainId).any (needsRefresh s.db.domains s.now)

def dueDomains (s : RefreshState) : List DomainId :=
  (s.db.details.rows.filter (needsRefresh s.db.domains s.now)).map DomainDetail.domainId

/-- A tick has created a refresh task for the domain. -/
def received (s : RefreshState) (domainId : DomainId) : Bool :=
  s.db.tasks.rows.any fun t =>
    decide (t.id ∈ s.created ∧ t.type = .refresh ∧ t.domainId = domainId)

end RefreshState

/-- No refresh task is PENDING or PROCESSING. -/
def RefreshesDone (tasks : TaskTable) : Prop :=
  ∀ t ∈ tasks.rows, t.type = .refresh → t.status.isOpen = false

instance (tasks : TaskTable) : Decidable (RefreshesDone tasks) :=
  inferInstanceAs (Decidable (∀ t ∈ tasks.rows, t.type = .refresh → t.status.isOpen = false))

/-- What the attempt leaves in the table of details. -/
def Attempt.commitDetail (a : Attempt) (domainId : DomainId) (existing : Option DomainDetail)
    (details : DetailTable) : Option DetailTable :=
  match a.observed with
  | none => some details
  | some http =>
    persistDetail (stampedDetail domainId a.dns http a.now a.now (expectedVersion existing)) existing details

/-- A tick waits for the refresh tasks before it to be done, and no domain
falls due on the way. -/
def refreshNext (maxAttempts batch : Nat) (s : RefreshState) : RefreshStep → Option RefreshState
  | .elapse duration =>
    if ∀ detail ∈ s.db.details.rows, needsRefresh s.db.domains (s.now + duration) detail = true →
        needsRefresh s.db.domains s.now detail = true then
      some { s with now := s.now + duration }
    else none
  | .tick rows uuid =>
    if rows.Perm s.db.details.rows ∧ RefreshesDone s.db.tasks then
      let found := getDomainsNeedingRefresh s.db.domains batch s.now rows
      (refreshTasksFor uuid s.now found s.db.tasks.rows).bind fun created =>
        (s.db.tasks.insert created).map fun tasks =>
          { s with
            db := { s.db with tasks := tasks }
            created := s.created ++ created.map Task.id
            ticks := s.ticks + 1 }
    else none
  | .claim limit leaseExpiresAt now taskTypes =>
    some { s with
      db := { s.db with tasks := (claimTasks limit leaseExpiresAt taskTypes now s.db.tasks).1 } }
  | .attempt taskId a existing =>
    match s.db.tasks.get taskId with
    | none => none
    | some task =>
      if taskId ∈ s.created ∧ task.type = .refresh ∧
          a.domainFound = (s.db.domains.get task.domainId).isSome ∧
          ∀ http ∈ a.observed, s.now < nextRefresh http a.now then
        (a.commitDetail task.domainId existing s.db.details).map fun details =>
          { s with db := a.processTask.write.apply maxAttempts { s.db with details := details } task }
      else none
  | .recover limit now updatedAt draws =>
    some { s with
      db := { s.db with
        tasks := (recoverExpiredTasks maxAttempts limit now updatedAt draws s.db.tasks).1 } }

/-- No attempt at a domain that is due ends its task in place, and no recovery
cycle exhausts one. -/
def movesOn (maxAttempts : Nat) (s : RefreshState) : RefreshStep → Bool
  | .attempt taskId a _ =>
    (s.db.tasks.get taskId).all fun task => !(s.due task.domainId && a.endsInPlace)
  | .recover limit now _ _ =>
    (recoverySelection limit now s.db.tasks.rows).all fun t =>
      !(t.type == .refresh && s.due t.domainId) || decide (t.attempts < maxAttempts)
  | .elapse _ | .tick _ _ | .claim _ _ _ _ => true

/-- What the steps between two ticks do: task rows are rewritten, domains that
are due stay so or had their task, and an open task of one is not closed. -/
structure Processing (f : Task → Task) (s s' : RefreshState) : Prop where
  created : s'.created = s.created
  ticks : s'.ticks = s.ticks
  tasks : s'.db.tasks.rows = s.db.tasks.rows.map f
  subject : ∀ t, (f t).id = t.id ∧ (f t).type = t.type ∧ (f t).domainId = t.domainId
  falls : ∀ domainId, s'.due domainId = true → s.due domainId = true
  leaves : ∀ domainId, s.due domainId = true → s'.due domainId = true ∨ s.received domainId = true
  stays : ∀ t ∈ s.db.tasks.rows, ∀ domainId, openRefresh domainId t = true →
    s'.due domainId = true → openRefresh domainId (f t) = true

variable {maxAttempts batch : Nat} {s s' : RefreshState} {domainId : DomainId}

namespace RefreshState

theorem due_eq_true_iff : s.due domainId = true ↔ ∃ detail, s.db.details.get domainId = some detail ∧
    detail.nextRefreshAt ≤ s.now ∧ (s.db.domains.get domainId).any Domain.isActive = true := by
  unfold due
  rw [Option.any_eq_true]
  refine exists_congr fun detail => and_congr_right fun found => ?_
  obtain ⟨_, rfl⟩ := Table.get_eq_some_iff.mp found
  simp [needsRefresh, and_comm]

theorem mem_dueDomains : domainId ∈ s.dueDomains ↔ s.due domainId = true := by
  unfold dueDomains due
  rw [List.mem_map, Option.any_eq_true]
  constructor
  · rintro ⟨detail, hm, rfl⟩
    obtain ⟨stored, needs⟩ := List.mem_filter.mp hm
    exact ⟨detail, Table.get_eq_some_iff.mpr ⟨stored, rfl⟩, needs⟩
  · rintro ⟨detail, found, needs⟩
    obtain ⟨stored, same⟩ := Table.get_eq_some_iff.mp found
    exact ⟨detail, List.mem_filter.mpr ⟨stored, needs⟩, same⟩

theorem received_eq_true_iff : s.received domainId = true ↔
    ∃ t ∈ s.db.tasks.rows, t.id ∈ s.created ∧ t.type = .refresh ∧ t.domainId = domainId := by
  simp [received]

end RefreshState

theorem Processing.received {f : Task → Task} (h : Processing f s s') (domainId : DomainId) :
    s'.received domainId = s.received domainId := by
  unfold RefreshState.received
  rw [h.tasks, h.created, List.any_map]
  congr 1
  funext t
  obtain ⟨id, type, subject⟩ := h.subject t
  simp only [Function.comp_apply, id, type, subject]

theorem processing_elapse {duration : Nat}
    (h : refreshNext maxAttempts batch s (.elapse duration) = some s') : Processing id s s' := by
  obtain ⟨quiet, h⟩ := Option.ite_none_right_eq_some.mp h
  cases Option.some.inj h
  refine ⟨rfl, rfl, (List.map_id _).symm, fun _ => ⟨rfl, rfl, rfl⟩, ?_, ?_, ?_⟩
  · intro domainId due
    obtain ⟨detail, found, needs⟩ := (Option.any_eq_true _ _).mp due
    exact (Option.any_eq_true _ _).mpr
      ⟨detail, found, quiet detail (Table.get_eq_some_iff.mp found).1 needs⟩
  · intro domainId due
    obtain ⟨detail, found, passed, active⟩ := RefreshState.due_eq_true_iff.mp due
    have later : detail.nextRefreshAt ≤ s.now + duration :=
      Int.le_trans passed (Int.le_add_of_nonneg_right (Int.natCast_nonneg _))
    exact Or.inl (RefreshState.due_eq_true_iff.mpr ⟨detail, found, later, active⟩)
  · intro t _ domainId opened _
    exact opened

/-- Steps that only rewrite task rows. -/
theorem processing_rows {f : Task → Task} {tasks : TaskTable} (rows : tasks.rows = s.db.tasks.rows.map f)
    (subject : ∀ t, (f t).id = t.id ∧ (f t).type = t.type ∧ (f t).domainId = t.domainId)
    (stays : ∀ t ∈ s.db.tasks.rows, ∀ domainId, openRefresh domainId t = true →
      s.due domainId = true → openRefresh domainId (f t) = true) :
    Processing f s { s with db := { s.db with tasks := tasks } } :=
  ⟨rfl, rfl, rows, subject, fun _ due => due, fun _ due => Or.inl due, stays⟩

theorem processing_claim {limit : Int} {leaseExpiresAt now : Instant}
    {taskTypes : Option (List TaskType)}
    (h : refreshNext maxAttempts batch s (.claim limit leaseExpiresAt now taskTypes) = some s') :
    ∃ f, Processing f s s' := by
  cases Option.some.inj h
  refine ⟨_, processing_rows rfl ?_ ?_⟩
  · intro t
    split <;> exact ⟨rfl, rfl, rfl⟩
  · intro t _ domainId opened _
    rw [openRefresh_iff] at opened ⊢
    split
    · exact ⟨opened.1, opened.2.1, rfl⟩
    · exact opened

theorem processing_recover {limit : Int} {now updatedAt : Instant} {draws : TaskId → RetryDraw}
    (h : refreshNext maxAttempts batch s (.recover limit now updatedAt draws) = some s')
    (moves : movesOn maxAttempts s (.recover limit now updatedAt draws) = true) :
    ∃ f, Processing f s s' := by
  cases Option.some.inj h
  refine ⟨_, processing_rows rfl ?_ ?_⟩
  · intro t
    split
    · unfold recoverRow
      split <;> exact ⟨rfl, rfl, rfl⟩
    · exact ⟨rfl, rfl, rfl⟩
  · intro t _ domainId opened due
    rw [openRefresh_iff] at opened ⊢
    obtain ⟨rfl, refresh, _⟩ := opened
    split
    next selected =>
      have left : t.attempts < maxAttempts := by
        have checked := List.all_eq_true.mp moves t selected
        simpa [refresh, due] using checked
      have retried : ¬maxAttempts ≤ t.attempts := by omega
      rw [recoverRow, if_neg retried]
      exact ⟨rfl, refresh, rfl⟩
    next => exact ⟨rfl, refresh, ‹_›⟩

theorem Attempt.commitDetail_cases {a : Attempt} {existing : Option DomainDetail} {details after : DetailTable}
    (h : a.commitDetail domainId existing details = some after) :
    (∀ other, other ≠ domainId → after.get other = details.get other) ∧
      ((a.observed = none ∧ after = details) ∨ ∃ http detail, a.observed = some http ∧
        after.get domainId = some detail ∧ detail.nextRefreshAt = nextRefresh http a.now) := by
  unfold commitDetail at h
  split at h
  next unobserved =>
    cases Option.some.inj h
    exact ⟨fun _ _ => rfl, Or.inl ⟨unobserved, rfl⟩⟩
  next http seen =>
    obtain ⟨⟨v, stored⟩, others⟩ := persistDetail_persisted h
    exact ⟨others, Or.inr ⟨http, _, seen, stored, rfl⟩⟩

theorem deactivateDomain_domains_other {db : Db} {other : DomainId} (h : other ≠ domainId) (now : Instant) :
    (deactivateDomain db domainId now).domains.get other = db.domains.get other := by
  rw [deactivateDomain, Table.get_set, if_neg h]

theorem deactivateDomain_domains_active {db : Db} {now : Instant} :
    ((deactivateDomain db domainId now).domains.get domainId).any Domain.isActive = false := by
  cases known : db.domains.get domainId with
  | none => simp [deactivateDomain, Table.get_set, known]
  | some domain =>
    have inactive := deactivateDomain_inactive db now (by rw [known]; rfl)
    obtain ⟨after, found, off⟩ := Option.map_eq_some_iff.mp inactive
    rw [found]
    exact off

/-- An attempt, with the task row it is at. -/
structure AttemptStep (maxAttempts : Nat) (s : RefreshState) (a : Attempt) (task : Task)
    (details : DetailTable) (s' : RefreshState) : Prop where
  stored : s.db.tasks.get task.id = some task
  created : task.id ∈ s.created
  refresh : task.type = .refresh
  domainFound : a.domainFound = (s.db.domains.get task.domainId).isSome
  later : ∀ http ∈ a.observed, s.now < nextRefresh http a.now
  others : ∀ other, other ≠ task.domainId → details.get other = s.db.details.get other
  commit : (a.observed = none ∧ details = s.db.details) ∨ ∃ http detail, a.observed = some http ∧
    details.get task.domainId = some detail ∧ detail.nextRefreshAt = nextRefresh http a.now
  after : s' = { s with
    db := a.processTask.write.apply maxAttempts { s.db with details := details } task }

theorem attemptStep_of_next {taskId : TaskId} {a : Attempt} {existing : Option DomainDetail}
    (h : refreshNext maxAttempts batch s (.attempt taskId a existing) = some s') :
    ∃ task details, s.db.tasks.get taskId = some task ∧ AttemptStep maxAttempts s a task details s' := by
  simp only [refreshNext] at h
  split at h
  next => cases h
  next task found =>
    obtain ⟨⟨created, refresh, domainFound, later⟩, h⟩ := Option.ite_none_right_eq_some.mp h
    obtain ⟨details, committed, rfl⟩ := Option.map_eq_some_iff.mp h
    obtain ⟨_, rfl⟩ := Table.get_eq_some_iff.mp found
    obtain ⟨others, commit⟩ := Attempt.commitDetail_cases committed
    exact ⟨task, details, found, found, created, refresh, domainFound, later, others, commit, rfl⟩

namespace AttemptStep

variable {a : Attempt} {task : Task} {details : DetailTable}
  (h : AttemptStep maxAttempts s a task details s')

include h

theorem details_eq : s'.db.details = details := by
  rw [h.after]
  exact WorkerWrite.apply_details _ _ _ _

theorem domains_cases : s'.db.domains = s.db.domains ∨
    ∃ now, s'.db.domains = (deactivateDomain s.db task.domainId now).domains := by
  rw [h.after]
  exact @WorkerWrite.apply_domains _ _ { s.db with details := details } _ h.stored

theorem due_other (other : domainId ≠ task.domainId) : s'.due domainId = s.due domainId := by
  have domain : s'.db.domains.get domainId = s.db.domains.get domainId := by
    rcases h.domains_cases with same | ⟨now, deactivated⟩
    · rw [same]
    · rw [deactivated, deactivateDomain_domains_other other]
  have now : s'.now = s.now := by rw [h.after]
  rw [Bool.eq_iff_iff, RefreshState.due_eq_true_iff, RefreshState.due_eq_true_iff, h.details_eq,
    h.others domainId other, domain, now]

/-- The domain of the task is still due only when nothing was committed for it. -/
theorem still_due (due : s'.due task.domainId = true) : a.observed = none ∧
    (s'.db.domains.get task.domainId).any Domain.isActive = true ∧ s.due task.domainId = true := by
  obtain ⟨detail, found, passed, active⟩ := RefreshState.due_eq_true_iff.mp due
  have now : s'.now = s.now := by rw [h.after]
  rw [h.details_eq] at found
  rw [now] at passed
  rcases h.commit with ⟨unobserved, same⟩ | ⟨http, written, seen, stored, next⟩
  · have before : (s.db.domains.get task.domainId).any Domain.isActive = true := by
      rcases h.domains_cases with kept | ⟨now, deactivated⟩
      · rwa [← kept]
      · rw [deactivated, deactivateDomain_domains_active] at active
        cases active
    rw [same] at found
    exact ⟨unobserved, active, RefreshState.due_eq_true_iff.mpr ⟨detail, found, passed, before⟩⟩
  · rw [stored] at found
    cases Option.some.inj found
    rw [next] at passed
    exact absurd passed (Int.not_le.mpr (h.later http seen))

theorem stays (moves : s.due task.domainId = true → a.endsInPlace = false)
    (opened : task.status.isOpen = true) (due : s'.due task.domainId = true) :
    (a.processTask.write.row maxAttempts task).status.isOpen = true := by
  obtain ⟨unobserved, active, before⟩ := h.still_due due
  have known : (s.db.domains.get task.domainId).isSome = true := by
    obtain ⟨_, _, _, on⟩ := RefreshState.due_eq_true_iff.mp before
    obtain ⟨domain, found, _⟩ := (Option.any_eq_true _ _).mp on
    rw [found]
    rfl
  have inactive : (s'.db.domains.get task.domainId).map Domain.isActive ≠ some false := by
    intro off
    obtain ⟨domain, found, off⟩ := Option.map_eq_some_iff.mp off
    rw [found, Option.any_some, off] at active
    cases active
  rw [h.after] at inactive
  have write := Attempt.processTask_moved (h.domainFound.trans known) (moves before)
  generalize a.processTask.write = written at write inactive ⊢
  cases write with
  | nothing => exact opened
  | rescheduled error =>
    by_cases exhausted : maxAttempts ≤ task.attempts
    · exact absurd (writeRescheduleTask_inactive { s.db with details := details } error a.now a.draw
        h.stored exhausted known) inactive
    · simp only [Attempt.reschedule, WorkerWrite.row, rescheduleRow, if_neg exhausted]
      rfl
  | observed seen =>
    rw [unobserved] at seen
    cases seen

end AttemptStep

theorem processing_attempt {taskId : TaskId} {a : Attempt} {existing : Option DomainDetail}
    (h : refreshNext maxAttempts batch s (.attempt taskId a existing) = some s')
    (moves : movesOn maxAttempts s (.attempt taskId a existing) = true) : ∃ f, Processing f s s' := by
  obtain ⟨task, details, found, step⟩ := attemptStep_of_next h
  have ends : s.due task.domainId = true → a.endsInPlace = false := by
    intro due
    rw [movesOn, found] at moves
    simpa [due] using moves
  refine ⟨fun t => if t.id = task.id then a.processTask.write.row maxAttempts t else t, ?_⟩
  refine ⟨by rw [step.after], by rw [step.after], ?_, ?_, ?_, ?_, ?_⟩
  · rw [step.after, WorkerWrite.apply_tasks]
    rfl
  · intro t
    split
    · obtain ⟨domainId, type, _⟩ := WorkerWrite.row_subject maxAttempts a.processTask.write t
      exact ⟨WorkerWrite.row_id _ _ t, type, domainId⟩
    · exact ⟨rfl, rfl, rfl⟩
  · intro domainId due
    by_cases other : domainId = task.domainId
    · subst other
      exact (step.still_due due).2.2
    · rwa [step.due_other other] at due
  · intro domainId due
    by_cases other : domainId = task.domainId
    · right
      exact RefreshState.received_eq_true_iff.mpr ⟨task, (Table.get_eq_some_iff.mp step.stored).1,
        step.created, step.refresh, other.symm⟩
    · left
      rwa [step.due_other other]
  · intro t ht domainId opened due
    split
    next same =>
      have row : t = task := Table.eq_of_key ht (Table.get_eq_some_iff.mp step.stored).1 same
      subst row
      obtain ⟨rfl, refresh, live⟩ := openRefresh_iff.mp opened
      obtain ⟨domainId, type, _⟩ := WorkerWrite.row_subject maxAttempts a.processTask.write t
      exact openRefresh_iff.mpr ⟨domainId, type.trans refresh, step.stays ends live due⟩
    next => exact opened

/-- Without open refresh tasks each listed domain gets its own. -/
theorem refreshTasksFor_domains {uuid : DomainId → TaskId} {now : Instant} {domainIds : List DomainId}
    {seen created : List Task} (h : refreshTasksFor uuid now domainIds seen = some created)
    (nodup : domainIds.Nodup) (free : ∀ domainId ∈ domainIds, seen.filter (openRefresh domainId) = []) :
    created.map Task.domainId = domainIds := by
  induction domainIds generalizing seen created with
  | nil =>
    cases Option.some.inj h
    rfl
  | cons domainId rest ih =>
    obtain ⟨unlisted, nodup⟩ := List.nodup_cons.mp nodup
    obtain ⟨unseen, free⟩ := List.forall_mem_cons.mp free
    simp only [refreshTasksFor, unseen] at h
    obtain ⟨more, hm, h⟩ := Option.bind_eq_some_iff.mp h
    cases Option.some.inj h
    have still : ∀ other ∈ rest,
        (seen ++ [refreshTask (uuid domainId) domainId now]).filter (openRefresh other) = [] := by
      intro other ho
      have different : domainId ≠ other := by
        rintro rfl
        exact unlisted ho
      rw [List.filter_append, free other ho]
      simp [openRefresh, refreshTask, different]
    rw [List.map_cons, ih hm nodup still]
    rfl

structure TickStep (batch : Nat) (s : RefreshState) (found : List DomainId) (created : List Task)
    (s' : RefreshState) : Prop where
  quiet : RefreshesDone s.db.tasks
  due : ∀ domainId ∈ found, s.due domainId = true
  nodup : found.Nodup
  length : found.length = min batch s.dueDomains.length
  domains : created.map Task.domainId = found
  shape : ∀ t ∈ created, t.type = .refresh ∧ t.status.isOpen = true
  unused : ∀ t ∈ created, ∀ old ∈ s.db.tasks.rows, old.id ≠ t.id
  rows : s'.db.tasks.rows = s.db.tasks.rows ++ created
  ids : s'.created = s.created ++ created.map Task.id
  ticks : s'.ticks = s.ticks + 1
  same : ∀ domainId, s'.due domainId = s.due domainId

theorem tickStep_of_next {rows : List DomainDetail} {uuid : DomainId → TaskId}
    (h : refreshNext maxAttempts batch s (.tick rows uuid) = some s') :
    ∃ found created, TickStep batch s found created s' := by
  obtain ⟨⟨perm, quiet⟩, h⟩ := Option.ite_none_right_eq_some.mp h
  obtain ⟨created, hc, h⟩ := Option.bind_eq_some_iff.mp h
  obtain ⟨tasks, ins, rfl⟩ := Option.map_eq_some_iff.mp h
  have distinct : (rows.map DomainDetail.domainId).Nodup :=
    (perm.map DomainDetail.domainId).nodup_iff.mpr s.db.details.nodup
  have nodup := @getDomainsNeedingRefresh_nodup s.db.domains batch s.now rows distinct
  have free : ∀ domainId : DomainId, s.db.tasks.rows.filter (openRefresh domainId) = [] := by
    intro domainId
    rw [List.filter_eq_nil_iff]
    intro t ht opened
    obtain ⟨_, refresh, live⟩ := openRefresh_iff.mp opened
    rw [quiet t ht refresh] at live
    cases live
  refine ⟨_, created, quiet, ?_, nodup, ?_, refreshTasksFor_domains hc nodup fun domainId _ => free domainId,
    ?_, ?_, Table.insert_rows ins, rfl, rfl, fun _ => rfl⟩
  · intro domainId listed
    obtain ⟨detail, stored, rfl, passed, domain, known, active⟩ := mem_getDomainsNeedingRefresh listed
    have found := Table.get_eq_some_iff.mpr ⟨perm.mem_iff.mp stored, rfl⟩
    exact RefreshState.due_eq_true_iff.mpr ⟨detail, found, passed, by rw [known]; exact active⟩
  · rw [getDomainsNeedingRefresh, List.length_map, select_length, perm.countP_eq, Int.toNat_natCast,
      RefreshState.dueDomains, List.length_map, List.countP_eq_length_filter]
  · intro t ht
    obtain ⟨id, domainId, rfl⟩ := refreshTasksFor_shape hc ht
    exact ⟨rfl, rfl⟩
  · intro t ht old ho same
    have fresh := Table.insert_fresh ins ht
    exact Table.get_eq_none_iff.mp fresh (same ▸ List.mem_map_of_mem ho)

theorem TickStep.received_iff {found : List DomainId} {created : List Task}
    (h : TickStep batch s found created s') :
    s'.received domainId = true ↔ s.received domainId = true ∨ domainId ∈ found := by
  rw [RefreshState.received_eq_true_iff, RefreshState.received_eq_true_iff, h.rows, h.ids, ← h.domains]
  constructor
  · rintro ⟨t, ht, id, refresh, rfl⟩
    rcases List.mem_append.mp ht with old | new
    · rcases List.mem_append.mp id with before | now
      · exact Or.inl ⟨t, old, before, refresh, rfl⟩
      · obtain ⟨u, hu, same⟩ := List.mem_map.mp now
        exact absurd same.symm (h.unused u hu t old)
    · exact Or.inr (List.mem_map_of_mem new)
  · rintro (⟨t, ht, id, refresh, rfl⟩ | now)
    · exact ⟨t, List.mem_append_left _ ht, List.mem_append_left _ id, refresh, rfl⟩
    · obtain ⟨t, ht, rfl⟩ := List.mem_map.mp now
      exact ⟨t, List.mem_append_right _ ht, List.mem_append_right _ (List.mem_map_of_mem ht),
        (h.shape t ht).1, rfl⟩

/-- The domains due at the start that have not had their task. -/
def RefreshState.waiting (start s : RefreshState) : Finset DomainId :=
  start.dueDomains.toFinset.filter fun domainId => s.received domainId = false

/-- Whatever is due was due at the start, and its task is still to be created
or still open; each tick has served a whole batch or all that waited. -/
structure Fair (batch : Nat) (start s : RefreshState) : Prop where
  due : ∀ domainId, s.due domainId = true → start.due domainId = true
  waits : ∀ domainId, start.due domainId = true → s.due domainId = true ∨ s.received domainId = true
  served : ∀ domainId, s.due domainId = true → s.received domainId = true →
    ∃ t ∈ s.db.tasks.rows, openRefresh domainId t = true
  count : (start.waiting s).card ≤ start.dueDomains.length - batch * s.ticks

variable {start : RefreshState}

theorem RefreshState.mem_waiting :
    domainId ∈ start.waiting s ↔ start.due domainId = true ∧ s.received domainId = false := by
  rw [waiting, Finset.mem_filter, List.mem_toFinset, mem_dueDomains]

theorem fair_init {now : Instant} {db : Db} : Fair batch (.init now db) (.init now db) := by
  have unserved : ∀ domainId, (RefreshState.init now db).received domainId = false := by
    intro domainId
    simp [RefreshState.received, RefreshState.init]
  refine ⟨fun _ due => due, fun _ due => Or.inl due, ?_, ?_⟩
  · intro domainId _ received
    rw [unserved] at received
    cases received
  · calc ((RefreshState.init now db).waiting (.init now db)).card
        ≤ (RefreshState.init now db).dueDomains.toFinset.card := Finset.card_filter_le _ _
      _ ≤ (RefreshState.init now db).dueDomains.length := List.toFinset_card_le _

theorem fair_processing {f : Task → Task} (fair : Fair batch start s) (h : Processing f s s') :
    Fair batch start s' := by
  refine ⟨fun domainId due => fair.due domainId (h.falls domainId due), ?_, ?_, ?_⟩
  · intro domainId due
    rw [h.received]
    rcases fair.waits domainId due with still | received
    · exact h.leaves domainId still
    · exact Or.inr received
  · intro domainId due received
    rw [h.received] at received
    obtain ⟨t, ht, opened⟩ := fair.served domainId (h.falls domainId due) received
    refine ⟨f t, ?_, h.stays t ht domainId opened due⟩
    rw [h.tasks]
    exact List.mem_map_of_mem ht
  · have same : start.waiting s' = start.waiting s := by
      unfold RefreshState.waiting
      simp only [h.received]
    rw [same, h.ticks]
    exact fair.count

section Tick

variable {found : List DomainId} {created : List Task} (fair : Fair batch start s)
  (h : TickStep batch s found created s')

include h in
theorem TickStep.waiting_eq : start.waiting s' = start.waiting s \ found.toFinset := by
  ext domainId
  rw [Finset.mem_sdiff, RefreshState.mem_waiting, RefreshState.mem_waiting, List.mem_toFinset]
  rw [← Bool.not_eq_true, ← Bool.not_eq_true, h.received_iff]
  tauto

include fair in
theorem Fair.waiting_due : start.waiting s ⊆ s.dueDomains.toFinset := by
  intro domainId waits
  obtain ⟨due, missing⟩ := RefreshState.mem_waiting.mp waits
  rw [List.mem_toFinset, RefreshState.mem_dueDomains]
  rcases fair.waits domainId due with still | received
  · exact still
  · rw [missing] at received
    cases received

include fair h

/-- At a tick, no domain that is due has had its task. -/
theorem Fair.unserved (due : s.due domainId = true) : s.received domainId = false := by
  by_contra received
  rw [Bool.not_eq_false] at received
  obtain ⟨t, ht, opened⟩ := fair.served domainId due received
  obtain ⟨_, refresh, live⟩ := openRefresh_iff.mp opened
  rw [h.quiet t ht refresh] at live
  cases live

theorem Fair.batch_waits : found.toFinset ⊆ start.waiting s := by
  intro domainId listed
  have due := h.due domainId (List.mem_toFinset.mp listed)
  exact RefreshState.mem_waiting.mpr ⟨fair.due domainId due, fair.unserved h due⟩

theorem Fair.tick_count : (start.waiting s').card ≤ start.dueDomains.length - batch * s'.ticks := by
  have served : (start.waiting s').card + found.length = (start.waiting s).card := by
    rw [h.waiting_eq, ← List.toFinset_card_of_nodup h.nodup]
    exact Finset.card_sdiff_add_card_eq_card (fair.batch_waits h)
  have bound : (start.waiting s).card ≤ s.dueDomains.length :=
    (Finset.card_le_card fair.waiting_due).trans (List.toFinset_card_le _)
  have before := fair.count
  have length := h.length
  have ticks : batch * s'.ticks = batch * s.ticks + batch := by rw [h.ticks, Nat.mul_succ]
  omega

theorem fair_tick : Fair batch start s' := by
  refine ⟨?_, ?_, ?_, fair.tick_count h⟩
  · intro domainId due
    rw [h.same] at due
    exact fair.due domainId due
  · intro domainId due
    rw [h.same, h.received_iff]
    rcases fair.waits domainId due with still | received
    · exact Or.inl still
    · exact Or.inr (Or.inl received)
  · intro domainId due received
    rw [h.same] at due
    rcases h.received_iff.mp received with before | now
    · rw [fair.unserved h due] at before
      cases before
    · rw [← h.domains] at now
      obtain ⟨t, ht, rfl⟩ := List.mem_map.mp now
      obtain ⟨refresh, live⟩ := h.shape t ht
      refine ⟨t, ?_, openRefresh_iff.mpr ⟨rfl, refresh, live⟩⟩
      rw [h.rows]
      exact List.mem_append_right _ ht

end Tick

theorem fair_step {step : RefreshStep} (fair : Fair batch start s)
    (moves : movesOn maxAttempts s step = true) (h : refreshNext maxAttempts batch s step = some s') :
    Fair batch start s' := by
  cases step with
  | elapse duration => exact fair_processing fair (processing_elapse h)
  | tick rows uuid =>
    obtain ⟨found, created, tick⟩ := tickStep_of_next h
    exact fair_tick fair tick
  | claim limit leaseExpiresAt now taskTypes =>
    obtain ⟨f, step⟩ := processing_claim h
    exact fair_processing fair step
  | attempt taskId a existing =>
    obtain ⟨f, step⟩ := processing_attempt h moves
    exact fair_processing fair step
  | recover limit now updatedAt draws =>
    obtain ⟨f, step⟩ := processing_recover h moves
    exact fair_processing fair step

/-- As long as every end of a refresh moves its domain on, `⌈n / batch⌉` ticks
create a refresh task for each of the `n` domains due at the start. -/
theorem refresh_fairness (positive : 1 ≤ batch) {now : Instant} {db : Db}
    {trace : List (RefreshState × RefreshStep)}
    (run : Run (refreshNext maxAttempts batch) (.init now db) trace s)
    (moves : ∀ p ∈ trace, movesOn maxAttempts p.1 p.2 = true)
    (enough : ((RefreshState.init now db).dueDomains.length + batch - 1) / batch ≤ s.ticks) :
    ∀ domainId, (RefreshState.init now db).due domainId = true → s.received domainId = true := by
  have fair : Fair batch (.init now db) s :=
    run.guarded (fun t step => movesOn maxAttempts t step = true) fair_init
      (fun before ok h => fair_step before ok h) moves
  intro domainId due
  by_contra missing
  rw [Bool.not_eq_true] at missing
  have one : 0 < ((RefreshState.init now db).waiting s).card :=
    Finset.card_pos.mpr ⟨domainId, RefreshState.mem_waiting.mpr ⟨due, missing⟩⟩
  have left := fair.count
  have covered : (RefreshState.init now db).dueDomains.length ≤ batch * s.ticks := by
    have rounds := (Nat.div_le_iff_le_mul_add_pred (by omega)).mp enough
    omega
  omega

/-- Two days after both domains were looked up. -/
def twoDaysLater : Instant := seconds 172800

def staleDetail (domainId : DomainId) (nextRefreshAt : Instant) : DomainDetail :=
  { domainId := domainId, ipAddresses := ["93.184.216.34"], dnsRecords := [("A", ["93.184.216.34"])],
    httpStatus := 200, pageTitle := none, responseTime := 5, responseHeaders := [], fetchedAt := 0,
    nextRefreshAt := nextRefreshAt, version := 1 }

def staleDb : Db :=
  { jobs := .empty
    domains := ⟨[⟨1, "a.example", true, none, 0, 0⟩, ⟨2, "b.example", true, none, 0, 0⟩], by decide⟩
    tasks := .empty
    details := ⟨[staleDetail 1 (seconds 86400), staleDetail 2 (seconds 86401)], by decide⟩
    idempotencyRecords := .empty }

def answer (statusCode : Int) : HttpResult := ⟨statusCode, [], 5, none, none⟩

def answeredAttempt (statusCode : Int) : Attempt :=
  { rebindingAttempt with now := twoDaysLater, probe := .ok (answer statusCode) }

/-- Two ticks of one task each. The server of the first domain answers its task
with a status code and leaves `detail` for the second tick. -/
def twoTicks (statusCode : Int) (detail : DomainDetail) : List RefreshStep :=
  [.tick [staleDetail 1 (seconds 86400), staleDetail 2 (seconds 86401)] (10 + ·),
    .claim 10 (twoDaysLater + seconds 120) twoDaysLater none,
    .attempt 11 (answeredAttempt statusCode) (some (staleDetail 1 (seconds 86400))),
    .tick [detail, staleDetail 2 (seconds 86401)] (20 + ·)]

def goneTicks : List RefreshStep := twoTicks 404 (staleDetail 1 (seconds 86400))

def refreshedTicks : List RefreshStep :=
  twoTicks 200 (stampedDetail 1 rebindingAttempt.dns (answer 200) twoDaysLater twoDaysLater 1)

/-- The oldest domain answers with a permanent failure and is picked again. -/
theorem refresh_fairness_gone : ∃ trace s,
    Run (refreshNext 3 1) (.init twoDaysLater staleDb) trace s ∧
      ((RefreshState.init twoDaysLater staleDb).dueDomains.length + 1 - 1) / 1 ≤ s.ticks ∧
      (RefreshState.init twoDaysLater staleDb).due 2 = true ∧ s.received 2 = false := by
  have starved : (exec (refreshNext 3 1) (.init twoDaysLater staleDb) goneTicks).any
      (fun s => decide (s.ticks = 2) && !s.received 2) = true := by decide +kernel
  obtain ⟨s, executed, state⟩ := (Option.any_eq_true _ _).mp starved
  rw [Bool.and_eq_true, decide_eq_true_eq, Bool.not_eq_true'] at state
  have two : (RefreshState.init twoDaysLater staleDb).dueDomains.length = 2 := by decide +kernel
  refine ⟨_, s, exec_run executed, ?_, by decide +kernel, state.2⟩
  rw [two, state.1]

theorem refresh_fairness_refreshed : ∃ s, exec (refreshNext 3 1) (.init twoDaysLater staleDb) refreshedTicks =
    some s ∧ s.received 1 = true ∧ s.received 2 = true := by
  have ticked : (exec (refreshNext 3 1) (.init twoDaysLater staleDb) refreshedTicks).any
      (fun s => decide (s.ticks = 2)) = true := by decide +kernel
  obtain ⟨s, executed, ticks⟩ := (Option.any_eq_true _ _).mp ticked
  rw [decide_eq_true_eq] at ticks
  have two : (RefreshState.init twoDaysLater staleDb).dueDomains.length = 2 := by decide +kernel
  have moves : ∀ p ∈ steps (refreshNext 3 1) (.init twoDaysLater staleDb) refreshedTicks,
      movesOn 3 p.1 p.2 = true := by decide +kernel
  have fair := refresh_fairness (by decide) (exec_run executed) moves (by rw [two, ticks])
  exact ⟨s, executed, fair 1 (by decide +kernel), fair 2 (by decide +kernel)⟩

end DomainProcessing
