import DomainProcessing.Config
import DomainProcessing.DetailHistory
import DomainProcessing.RefreshScheduler
import DomainProcessing.ServiceRuns

namespace DomainProcessing

open Tables Runs

/-- `next_refresh` of `_persist_domain_detail`. What `refresh_interval_seconds`
gives is overwritten on both branches. -/
def nextRefresh (http : HttpResult) (now : Instant) : Instant :=
  now + if http.isSuccess then seconds 86400 else seconds 3600

/-- The row of `_persist_domain_detail`, with its two readings of the clock. -/
def stampedDetail (domainId : DomainId) (dns : DnsResult) (http : HttpResult)
    (plannedAt fetchedAt : Instant) (expected : Int) : DomainDetail :=
  { domainId := domainId
    ipAddresses := dns.allIps
    dnsRecords := dnsRecords dns
    httpStatus := http.statusCode
    pageTitle := http.pageTitle
    responseTime := http.responseTimeMs
    responseHeaders := http.headers
    fetchedAt := fetchedAt
    nextRefreshAt := nextRefresh http plannedAt
    version := expected + 1 }

/-- `upsert_with_occ` and the one retry after an OCC conflict, after the version
read `existing`; `none` raises. -/
def persistDetail (detail : DomainDetail) (existing : Option DomainDetail) (details : DetailTable) :
    Option DetailTable :=
  match upsertDetail detail (expectedVersion existing) details with
  | (after, .updated _) | (after, .inserted _) => some after
  | (after, .occConflict _ _) =>
    match after.get detail.domainId with
    | none => none
    | some found =>
      let version := sessionVersion existing found
      let retried := { detail with version := version + 1 }
      match upsertDetail retried version after with
      | (again, .updated _) | (again, .inserted _) => some again
      | _ => none
  | _ => none

/-- What a write phase that does not raise leaves in the table. -/
structure Persisted (detail : DomainDetail) (details after : DetailTable) : Prop where
  stored : ∃ v, after.get detail.domainId = some { detail with version := v }
  others : ∀ other, other ≠ detail.domainId → after.get other = details.get other

theorem persisted_of_updated {detail : DomainDetail} {expected : Int} {details after : DetailTable}
    {outcome : UpsertOutcome} (h : upsertDetail detail expected details = (after, outcome))
    (succeeded : outcome.succeeded = true) : Persisted detail details after := by
  have effect : UpsertEffect detail expected details _ _ := upsertDetail_effect
  rw [h] at effect
  cases effect with
  | updated _ _ stored others => exact ⟨⟨_, stored⟩, others⟩
  | inserted _ stored others => exact ⟨⟨_, stored⟩, others⟩
  | occConflict => cases succeeded

theorem persistDetail_persisted {detail : DomainDetail} {existing : Option DomainDetail}
    {details after : DetailTable} (h : persistDetail detail existing details = some after) :
    Persisted detail details after := by
  unfold persistDetail at h
  split at h
  next first row hu =>
    cases Option.some.inj h
    exact persisted_of_updated hu rfl
  next first row hu =>
    cases Option.some.inj h
    exact persisted_of_updated hu rfl
  next first v found hu =>
    cases upsertDetail_conflict hu
    split at h
    next => cases h
    next existing _ =>
      dsimp only at h
      split at h
      next again row hr =>
        cases Option.some.inj h
        obtain ⟨⟨v, stored⟩, others⟩ := persisted_of_updated hr rfl
        exact ⟨⟨v, stored⟩, others⟩
      next again row hr =>
        cases Option.some.inj h
        obtain ⟨⟨v, stored⟩, others⟩ := persisted_of_updated hr rfl
        exact ⟨⟨v, stored⟩, others⟩
      next => cases h
  next => cases h

/-- Where one execution stands between its transactions. -/
inductive ExecutionStage
  | idle
  | read (task : Task) (found : Option DomainDetail)
  | needsProcessing (task : Task)
  | reread (task : Task) (found : Option DomainDetail)
  | probing (task : Task)
  | planned (task : Task) (dns : DnsResult) (http : HttpResult) (plannedAt : Instant)
  | versionRead (task : Task) (dns : DnsResult) (http : HttpResult) (plannedAt : Instant)
      (existing : Option DomainDetail)
  | persisting (task : Task) (detail : DomainDetail) (existing : Option DomainDetail)
  | fresh (task : Task)

/-- A failure or a crash abandons an execution; what `process_task` then writes
is an operation of the service. -/
inductive ExecutionStep
  | start (taskId : TaskId)
  | judge
  | acquireLock
  | probed (dns : DnsResult) (http : HttpResult)
  | readVersion
  | stampDetail
  | commit
  | completeFresh
  | abandon

/-- The service with its workers and schedulers. -/
structure SystemState (ω ι : Type*) where
  now : Instant
  service : ServiceState
  stage : ω → ExecutionStage
  ticks : ι → Option (Instant × List DomainId)

variable {ω ι : Type*}

namespace SystemState

def init : SystemState ω ι := ⟨0, .init, fun _ => .idle, fun _ => none⟩

def tasks (s : SystemState ω ι) : List Task := s.service.tasks

def details (s : SystemState ω ι) : DetailTable := s.service.db.details

/-- The service with other details, inside a transaction. -/
def writing (s : SystemState ω ι) (details : DetailTable) : ServiceState :=
  { s.service with db := { s.service.db with details := details } }

end SystemState

/-- The next stage of an execution. -/
def stageNext (settings : AppSettings) (s : SystemState ω ι) :
    ExecutionStage → ExecutionStep → Option ExecutionStage
  | .idle, .start taskId =>
    match s.service.db.tasks.get taskId with
    | none => none
    | some task =>
      if taskId ∈ s.service.claimed ∧ (s.service.db.domains.get task.domainId).isSome then
        some (.read task (s.details.get task.domainId))
      else none
  | .read task found, .judge =>
    some (if checkFreshness settings.domainDetailFreshnessSeconds s.now found then .fresh task
      else .needsProcessing task)
  | .needsProcessing task, .acquireLock => some (.reread task (s.details.get task.domainId))
  | .reread task found, .judge =>
    some (if checkFreshness settings.domainDetailFreshnessSeconds s.now found then .fresh task
      else .probing task)
  | .probing task, .probed dns http =>
    if dns.isSuccess ∧ http.isSuccess then some (.planned task dns http s.now) else none
  | .planned task dns http plannedAt, .readVersion =>
    some (.versionRead task dns http plannedAt (s.details.get task.domainId))
  | .versionRead task dns http plannedAt existing, .stampDetail =>
    some (.persisting task
      (stampedDetail task.domainId dns http plannedAt s.now (expectedVersion existing)) existing)
  | .persisting _ _ _, .commit | .fresh _, .completeFresh | _, .abandon => some .idle
  | _, _ => none

/-- What an execution commits. The detail and the completion are one
transaction, and both are rolled back when the second upsert conflicts too. -/
def commits (maxAttempts : Nat) (s : SystemState ω ι) :
    ExecutionStage → ExecutionStep → Option ServiceState
  | .persisting task detail existing, .commit =>
    match persistDetail detail existing s.details with
    | none => some s.service
    | some details => serviceNext maxAttempts (s.writing details) (.writeCompleteTask task.id s.now)
  | .fresh task, .completeFresh => serviceNext maxAttempts s.service (.writeCompleteTask task.id s.now)
  | _, _ => some s.service

inductive SystemOp (ω ι : Type*)
  | elapse (duration : Nat)
  | service (op : ServiceOp)
  | work (worker : ω) (step : ExecutionStep)
  | discover (scheduler : ι) (maxTasks : Int) (rows : List DomainDetail)
  | createTasks (scheduler : ι) (uuid : DomainId → TaskId)

/-- Completions and refresh tasks come from executions and ticks. -/
def ServiceOp.external : ServiceOp → Bool
  | .writeCompleteTask _ _ | .createRefreshTasks _ _ _ => false
  | _ => true

/-- The transitions of one execution. -/
inductive StageStep (settings : AppSettings) (s : SystemState ω ι) :
    ExecutionStage → ExecutionStep → ExecutionStage → Prop
  | start {taskId task} : s.service.db.tasks.get taskId = some task →
      StageStep settings s .idle (.start taskId) (.read task (s.details.get task.domainId))
  | reuse {task found} :
      checkFreshness settings.domainDetailFreshnessSeconds s.now found = true →
      StageStep settings s (.read task found) .judge (.fresh task)
  | process {task found} : StageStep settings s (.read task found) .judge (.needsProcessing task)
  | acquireLock {task} : StageStep settings s (.needsProcessing task) .acquireLock
      (.reread task (s.details.get task.domainId))
  | reuseAfterLock {task found} :
      checkFreshness settings.domainDetailFreshnessSeconds s.now found = true →
      StageStep settings s (.reread task found) .judge (.fresh task)
  | probe {task found} : StageStep settings s (.reread task found) .judge (.probing task)
  | probed {task dns http} : http.isSuccess = true →
      StageStep settings s (.probing task) (.probed dns http) (.planned task dns http s.now)
  | readVersion {task dns http plannedAt} :
      StageStep settings s (.planned task dns http plannedAt) .readVersion
        (.versionRead task dns http plannedAt (s.details.get task.domainId))
  | stampDetail {task dns http plannedAt existing} :
      StageStep settings s (.versionRead task dns http plannedAt existing) .stampDetail
        (.persisting task
          (stampedDetail task.domainId dns http plannedAt s.now (expectedVersion existing)) existing)
  | ended {stage step} : StageStep settings s stage step .idle

/-- How a step may change the service. -/
inductive ServiceChange (maxAttempts : Nat) (s : SystemState ω ι) :
    SystemOp ω ι → ServiceState → Prop
  | same {op : SystemOp ω ι} : ServiceChange maxAttempts s op s.service
  | external {op service} : op.external = true →
      serviceNext maxAttempts s.service op = some service →
      ServiceChange maxAttempts s (.service op) service
  | reused {worker task service} : s.stage worker = .fresh task →
      serviceNext maxAttempts s.service (.writeCompleteTask task.id s.now) = some service →
      ServiceChange maxAttempts s (.work worker .completeFresh) service
  | observed {worker task detail existing details service} :
      s.stage worker = .persisting task detail existing →
      persistDetail detail existing s.details = some details →
      serviceNext maxAttempts (s.writing details) (.writeCompleteTask task.id s.now) = some service →
      ServiceChange maxAttempts s (.work worker .commit) service
  | scheduled {scheduler uuid now domainIds service} : s.ticks scheduler = some (now, domainIds) →
      serviceNext maxAttempts s.service (.createRefreshTasks uuid domainIds now) = some service →
      ServiceChange maxAttempts s (.createTasks scheduler uuid) service

variable {settings : AppSettings} {maxAttempts : Nat} {s s' : SystemState ω ι}

theorem stageNext_cases {stage stage' : ExecutionStage} {step : ExecutionStep}
    (h : stageNext settings s stage step = some stage') : StageStep settings s stage step stage' := by
  unfold stageNext at h
  split at h
  next taskId =>
    split at h
    next => cases h
    next task found =>
      obtain ⟨_, h⟩ := Option.ite_none_right_eq_some.mp h
      cases Option.some.inj h
      exact .start found
  next task found =>
    cases Option.some.inj h
    split
    next fresh => exact .reuse fresh
    next => exact .process
  next task =>
    cases Option.some.inj h
    exact .acquireLock
  next task found =>
    cases Option.some.inj h
    split
    next fresh => exact .reuseAfterLock fresh
    next => exact .probe
  next task dns http =>
    obtain ⟨succeeded, h⟩ := Option.ite_none_right_eq_some.mp h
    cases Option.some.inj h
    exact .probed succeeded.2
  next =>
    cases Option.some.inj h
    exact .readVersion
  next =>
    cases Option.some.inj h
    exact .stampDetail
  next => exact Option.some.inj h ▸ .ended
  next => exact Option.some.inj h ▸ .ended
  next => exact Option.some.inj h ▸ .ended
  next => cases h

theorem commits_change {worker : ω} {step : ExecutionStep} {service : ServiceState}
    (h : commits maxAttempts s (s.stage worker) step = some service) :
    ServiceChange maxAttempts s (.work worker step) service := by
  generalize hs : s.stage worker = stage at h
  unfold commits at h
  split at h
  next task detail existing =>
    split at h
    next =>
      cases Option.some.inj h
      exact .same
    next details hp => exact .observed hs hp h
  next task => exact .reused hs h
  next =>
    cases Option.some.inj h
    exact .same

section Step

variable [DecidableEq ω] [DecidableEq ι]

def systemNext (settings : AppSettings) (maxAttempts : Nat) (s : SystemState ω ι) :
    SystemOp ω ι → Option (SystemState ω ι)
  | .elapse duration => some { s with now := s.now + duration }
  | .service op =>
    if op.external then
      (serviceNext maxAttempts s.service op).map fun service => { s with service := service }
    else none
  | .work worker step =>
    (stageNext settings s (s.stage worker) step).bind fun stage =>
      (commits maxAttempts s (s.stage worker) step).map fun service =>
        { s with service := service, stage := Function.update s.stage worker stage }
  | .discover scheduler maxTasks rows =>
    match s.ticks scheduler with
    | some _ => none
    | none =>
      if 0 < maxTasks ∧ rows.Perm s.details.rows then
        let found := getDomainsNeedingRefresh s.service.db.domains maxTasks s.now rows
        some { s with ticks := Function.update s.ticks scheduler (some (s.now, found)) }
      else none
  | .createTasks scheduler uuid =>
    match s.ticks scheduler with
    | none => none
    | some (now, domainIds) =>
      (serviceNext maxAttempts s.service (.createRefreshTasks uuid domainIds now)).map fun service =>
        { s with service := service, ticks := Function.update s.ticks scheduler none }

abbrev SystemRun (settings : AppSettings) (maxAttempts : Nat) :=
  Run (@systemNext ω ι _ _ settings maxAttempts)

variable {op : SystemOp ω ι}

/-- What a step does to each part of the system: the clock does not go back, and
a scheduler notes the instant of its tick. -/
structure SystemEffect (settings : AppSettings) (maxAttempts : Nat) (s : SystemState ω ι)
    (op : SystemOp ω ι) (s' : SystemState ω ι) : Prop where
  now : s.now ≤ s'.now
  service : ServiceChange maxAttempts s op s'.service
  stage : s'.stage = s.stage ∨ ∃ worker step stage, op = .work worker step ∧
    stageNext settings s (s.stage worker) step = some stage ∧
    s'.stage = Function.update s.stage worker stage
  ticks : s'.ticks = s.ticks ∨ ∃ scheduler tick,
    s'.ticks = Function.update s.ticks scheduler tick ∧ ∀ found ∈ tick, found.1 = s.now

theorem systemNext_effect (h : systemNext settings maxAttempts s op = some s') :
    SystemEffect settings maxAttempts s op s' := by
  cases op with
  | elapse duration =>
    cases Option.some.inj h
    exact ⟨Int.le_add_of_nonneg_right (Int.natCast_nonneg _), .same, Or.inl rfl, Or.inl rfl⟩
  | service op =>
    obtain ⟨external, h⟩ := Option.ite_none_right_eq_some.mp h
    obtain ⟨service, hs, rfl⟩ := Option.map_eq_some_iff.mp h
    exact ⟨Int.le_refl _, .external external hs, Or.inl rfl, Or.inl rfl⟩
  | work worker step =>
    obtain ⟨stage, hstage, h⟩ := Option.bind_eq_some_iff.mp h
    obtain ⟨service, hs, rfl⟩ := Option.map_eq_some_iff.mp h
    exact ⟨Int.le_refl _, commits_change hs, Or.inr ⟨worker, step, stage, rfl, hstage, rfl⟩,
      Or.inl rfl⟩
  | discover scheduler maxTasks rows =>
    simp only [systemNext] at h
    split at h
    next => cases h
    next =>
      obtain ⟨_, h⟩ := Option.ite_none_right_eq_some.mp h
      cases Option.some.inj h
      exact ⟨Int.le_refl _, .same, Or.inl rfl, Or.inr ⟨scheduler, _, rfl, by simp⟩⟩
  | createTasks scheduler uuid =>
    simp only [systemNext] at h
    split at h
    next => cases h
    next now domainIds ht =>
      obtain ⟨service, hs, rfl⟩ := Option.map_eq_some_iff.mp h
      exact ⟨Int.le_refl _, .scheduled ht hs, Or.inl rfl, Or.inr ⟨scheduler, none, rfl, by simp⟩⟩

/-- A worker's execution stands where it stood, unless the step is its own. -/
theorem stage_step (h : systemNext settings maxAttempts s op = some s') (worker : ω) :
    s'.stage worker = s.stage worker ∨ ∃ step, op = .work worker step ∧
      StageStep settings s (s.stage worker) step (s'.stage worker) := by
  rcases (systemNext_effect h).stage with same | ⟨worker', step, stage, rfl, hstage, hs⟩
  · exact Or.inl (congrFun same worker)
  · rw [hs]
    by_cases hw : worker = worker'
    · subst hw
      rw [Function.update_self]
      exact Or.inr ⟨step, rfl, stageNext_cases hstage⟩
    · exact Or.inl (Function.update_of_ne hw _ _)

theorem serviceNext_details_kept {service : ServiceState} {o : ServiceOp} {next : ServiceState}
    (h : serviceNext maxAttempts service o = some next) (other : ∀ sub, o ≠ .createJob sub)
    (domainId : DomainId) : next.db.details.get domainId = service.db.details.get domainId := by
  rcases serviceNext_detail h domainId with same | ⟨sub, rfl, _⟩
  · exact same
  · exact absurd rfl (other sub)

/-- How a step may change one domain's row: a submission deletes it, or an
execution commits an observation. -/
theorem systemNext_detail (h : systemNext settings maxAttempts s op = some s')
    (domainId : DomainId) :
    s'.details.get domainId = s.details.get domainId ∨
      (∃ sub, op = .service (.createJob sub) ∧
        (createJob sub s.service.db).1.details.get domainId = none ∧
        s'.details.get domainId = none) ∨
      ∃ worker task detail existing v, op = .work worker .commit ∧
        s.stage worker = .persisting task detail existing ∧ detail.domainId = domainId ∧
        s'.details.get domainId = some { detail with version := v } := by
  have change := (systemNext_effect h).service
  generalize hs : s'.service = service at change
  have shown : s'.details = service.db.details := congrArg (fun t => t.db.details) hs
  rw [shown]
  cases change with
  | same => exact Or.inl rfl
  | @external o _ _ hn =>
    rcases serviceNext_detail hn domainId with same | ⟨sub, rfl, cleared⟩
    · exact Or.inl same
    · refine Or.inr (Or.inl ⟨sub, rfl, ?_, cleared⟩)
      cases Option.some.inj hn
      exact cleared
  | reused _ hn => exact Or.inl (serviceNext_details_kept hn (by simp) domainId)
  | @observed worker task detail existing details _ hstage hp hn =>
    rw [serviceNext_details_kept hn (by simp) domainId]
    obtain ⟨⟨v, stored⟩, others⟩ := persistDetail_persisted hp
    by_cases hd : domainId = detail.domainId
    · subst hd
      exact Or.inr (Or.inr ⟨worker, task, detail, existing, v, rfl, hstage, rfl, stored⟩)
    · exact Or.inl (others domainId hd)
  | scheduled _ hn => exact Or.inl (serviceNext_details_kept hn (by simp) domainId)

end Step

end DomainProcessing
