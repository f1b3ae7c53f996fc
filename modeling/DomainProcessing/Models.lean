import DomainProcessing.Tables
import Mathlib.Algebra.Order.Ring.Int

namespace DomainProcessing

open Tables

/-- Instants in microseconds, the resolution of the stored timestamps. -/
abbrev Instant := Int

/-- `timedelta(seconds=n)` -/
def seconds (n : Nat) : Int := 1000000 * n

abbrev JobId := Nat
abbrev TaskId := Nat
abbrev DomainId := Nat

inductive TaskStatus
  | pending
  | processing
  | completed
  | failed
  deriving DecidableEq, Repr

inductive TaskType
  | userRequest
  | refresh
  deriving DecidableEq, Repr

/-- `status.in_([PENDING, PROCESSING])`; the other two statuses are terminal. -/
def TaskStatus.isOpen : TaskStatus → Bool
  | .pending | .processing => true
  | .completed | .failed => false

structure ErrorPayload where
  code : String
  message : String
  retryable : Bool
  deriving DecidableEq, Repr

structure Job where
  id : JobId
  status : TaskStatus
  createdAt : Instant
  updatedAt : Instant
  deriving DecidableEq, Repr

structure Domain where
  id : DomainId
  normalizedDomain : String
  isActive : Bool
  deactivatedAt : Option Instant
  createdAt : Instant
  updatedAt : Instant
  deriving DecidableEq, Repr

structure Task where
  id : TaskId
  jobId : Option JobId
  domainId : DomainId
  type : TaskType
  status : TaskStatus
  attempts : Nat
  nextAttemptAt : Instant
  leaseExpiresAt : Option Instant
  errorPayload : Option ErrorPayload
  createdAt : Instant
  updatedAt : Instant
  deriving DecidableEq, Repr

structure DomainDetail where
  domainId : DomainId
  ipAddresses : List String
  dnsRecords : List (String × List String)
  httpStatus : Int
  pageTitle : Option String
  responseTime : Int
  responseHeaders : List (String × String)
  fetchedAt : Instant
  nextRefreshAt : Instant
  version : Int
  deriving DecidableEq, Repr

structure IdempotencyRecord where
  id : Nat
  clientId : String
  idempotencyKey : String
  requestHash : String
  jobId : JobId
  createdAt : Instant
  deriving DecidableEq, Repr

/-- The unique constraint of `idempotency_record`. -/
def IdempotencyRecord.scope (r : IdempotencyRecord) : String × String :=
  (r.clientId, r.idempotencyKey)

abbrev TaskTable := Table Task.id

structure Db where
  jobs : Table Job.id
  domains : Table Domain.id
  tasks : TaskTable
  details : Table DomainDetail.domainId
  idempotencyRecords : Table IdempotencyRecord.scope

def Db.empty : Db := ⟨.empty, .empty, .empty, .empty, .empty⟩

/-- The open tasks of a job, as `_check_and_update_job_status` counts them. -/
def nonTerminalCount (tasks : List Task) (jobId : JobId) : Nat :=
  tasks.countP (fun t => decide (t.jobId = some jobId) && t.status.isOpen)

theorem nonTerminalCount_eq_zero_iff {tasks : List Task} {jobId : JobId} :
    nonTerminalCount tasks jobId = 0 ↔
      ∀ t ∈ tasks, t.jobId = some jobId → t.status.isOpen = false := by
  simp [nonTerminalCount, List.countP_eq_zero]

end DomainProcessing
