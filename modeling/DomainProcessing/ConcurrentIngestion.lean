import DomainProcessing.Ingestion
import DomainProcessing.RowInserts

namespace DomainProcessing

open RowLocks

/-- How far the transaction of a `create_job` request has come. A finished one
has committed a new job or not, and answered. -/
inductive IngestPhase
  | ready
  | jobInserted
  | refused
  | replaying (jobId : JobId)
  | opened
  | domainsRead (found : List Domain)
  | domainsCreated (known : List Domain)
  | domainsReactivated (known : List Domain)
  | tasksInserted
  | finished (wrote : Bool) (response : JobResponse)

/-- The transaction has committed a new job. -/
def IngestPhase.wrote : IngestPhase → Bool
  | .finished wrote _ => wrote
  | _ => false

def IngestPhase.response : IngestPhase → Option JobResponse
  | .finished _ response => some response
  | _ => none

inductive IngestAction
  | insertJob
  | insertRecord
  | savepointError
  | readWinner
  | readDomains
  | createDomains
  | reactivateDomains
  | insertTasks
  | commit (answered : Bool)
  | fail
  deriving DecidableEq

/-- The request gives up here, or one of its statements raises. -/
def IngestAction.aborts : IngestAction → Bool
  | .savepointError | .commit false | .fail => true
  | _ => false

structure IngestState (ι : Type*) where
  jobs : Store ι JobId Job
  records : Store ι (String × String) IdempotencyRecord
  domains : Store ι String Domain
  details : Store ι DomainId DomainDetail
  tasks : Store ι TaskId Task
  phase : ι → IngestPhase

def ingestInit {ι : Type*} (db : Db) : IngestState ι :=
  { jobs := .idle db.jobs.get
    records := .idle db.idempotencyRecords.get
    domains := .idle (findDomain db.domains.rows)
    details := .idle db.details.get
    tasks := .idle db.tasks.get
    phase := fun _ => .ready }

/-- The committed rows of every table. -/
def IngestState.snapshot {ι : Type*} (s : IngestState ι) :=
  (s.jobs.committed, s.records.committed, s.domains.committed, s.details.committed,
    s.tasks.committed)

def reactivatedNames (sub : Submission) (known : List Domain) : List String :=
  (sub.finalValidDomains.map NormalizedDomain.value).filter fun name =>
    (findDomain known name).any fun row => !row.isActive

section Transactions

variable {ι : Type*} [DecidableEq ι]

def IngestState.move (s : IngestState ι) (r : ι) (phase : IngestPhase) : IngestState ι :=
  { s with phase := Function.update s.phase r phase }

theorem move_phase_self {s : IngestState ι} {r : ι} {phase : IngestPhase} :
    (s.move r phase).phase r = phase := Function.update_self ..

def IngestState.commit (s : IngestState ι) (r : ι) : IngestState ι :=
  { s with
    jobs := s.jobs.commit r, records := s.records.commit r, domains := s.domains.commit r
    details := s.details.commit r, tasks := s.tasks.commit r }

def IngestState.rollback (s : IngestState ι) (r : ι) : IngestState ι :=
  { s with
    jobs := s.jobs.rollback r, records := s.records.rollback r, domains := s.domains.rollback r
    details := s.details.rollback r, tasks := s.tasks.rollback r }

/-- One statement of the request `r`; `none` while it waits for another
transaction. A request with an idempotency key opens its job in a savepoint. -/
def ingestNext (sub : ι → Submission) (s : IngestState ι) (step : ι × IngestAction) :
    Option (IngestState ι) :=
  let r := step.1
  match s.phase r, (sub r).scope, step.2 with
  | .ready, scope, .insertJob =>
    (s.jobs.insert r (sub r).jobUuid (sub r).jobRow).map fun jobs =>
      { s with jobs := jobs }.move r (if scope.isSome then .jobInserted else .opened)
  | .ready, some _, .savepointError => some (s.move r .refused)
  | .jobInserted, some _, .savepointError =>
    some ({ s with jobs := s.jobs.undo (sub r).jobUuid }.move r .refused)
  | .jobInserted, some scope, .insertRecord =>
    if s.records.free r scope = true then
      match s.records.insert r scope ((sub r).recordRow scope) with
      | some records => some ({ s with records := records }.move r .opened)
      | none => some ({ s with jobs := s.jobs.undo (sub r).jobUuid }.move r .refused)
    else none
  | .refused, some scope, .readWinner =>
    match s.records.view r scope with
    | none => some ((s.rollback r).move r (.finished false .failed))
    | some existing =>
      if existing.requestHash = (sub r).requestHash then some (s.move r (.replaying existing.jobId))
      else some ((s.rollback r).move r (.finished false .conflict))
  | .opened, _, .readDomains =>
    some (s.move r (.domainsRead ((sub r).allDomainStrs.filterMap (s.domains.view r))))
  | .domainsRead found, _, .createDomains =>
    let missing := (sub r).allDomainStrs.filter fun name => (findDomain found name).isNone
    let new := missing.map (sub r).domainRow
    (s.domains.insertAll r Domain.normalizedDomain new).map fun domains =>
      { s with domains := domains }.move r (.domainsCreated (found ++ new))
  | .domainsCreated known, _, .reactivateDomains =>
    let names := reactivatedNames (sub r) known
    let ids := reactivatedIds (sub r) known
    if (∀ name ∈ names, s.domains.free r name = true) ∧ ∀ id ∈ ids, s.details.free r id = true then
      some ({ s with
        domains := s.domains.writeAll r names fun d =>
          { d with isActive := true, deactivatedAt := none, updatedAt := (sub r).now }
        details := s.details.deleteAll r ids }.move r (.domainsReactivated known))
    else none
  | .domainsReactivated known, _, .insertTasks =>
    (validTasks (sub r) known).bind fun valid =>
      (invalidTasks (sub r) known).bind fun invalid =>
        (s.tasks.insertAll r Task.id (valid ++ invalid)).map fun tasks =>
          { s with tasks := tasks }.move r .tasksInserted
  | .tasksInserted, _, .commit answered =>
    some ((s.commit r).move r
      (.finished true (if answered then .accepted (sub r).jobUuid else .failed)))
  | .replaying jobId, _, .commit answered =>
    some ((s.commit r).move r (.finished false (if answered then .replayed jobId else .failed)))
  | .finished _ _, _, _ => none
  | _, _, .fail => some ((s.rollback r).move r (.finished false .failed))
  | _, _, _ => none

end Transactions

end DomainProcessing
