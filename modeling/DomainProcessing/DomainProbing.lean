import DomainProcessing.ExpiringLock
import DomainProcessing.ProcessTask

namespace DomainProcessing

open ExpiringLock

/-- `_check_freshness`, on the row it has read and at the instant of the comparison. -/
def checkFreshness (freshnessSeconds : Nat) (now : Instant) : Option DomainDetail → Bool
  | none => false
  | some detail => decide (now - detail.fetchedAt ≤ seconds freshnessSeconds)

def lockTtlSeconds : Nat := 60

/-- The records of `_persist_domain_detail`, in the order of the source. -/
def dnsRecords (dns : DnsResult) : List (String × List String) :=
  (if dns.ipsV4.isEmpty then [] else [("A", dns.ipsV4)]) ++
    (if dns.ipsV6.isEmpty then [] else [("AAAA", dns.ipsV6)]) ++
    (match dns.cname with
    | none => []
    | some cname => if cname = "" then [] else [("CNAME", [cname])])

def expectedVersion : Option DomainDetail → Int
  | none => 0
  | some existing => existing.version

/-- The row that `_persist_domain_detail` prepares after reading the existing one. -/
def observation (domainId : DomainId) (dns : DnsResult) (http : HttpResult) (now : Instant)
    (existing : Option DomainDetail) : DomainDetail :=
  { domainId := domainId
    ipAddresses := dns.allIps
    dnsRecords := dnsRecords dns
    httpStatus := http.statusCode
    pageTitle := http.pageTitle
    responseTime := http.responseTimeMs
    responseHeaders := http.headers
    fetchedAt := now
    nextRefreshAt := now + (if http.isSuccess then seconds 86400 else seconds 3600)
    version := expectedVersion existing + 1 }

/-- `upsert_with_occ`; `none` is the OCC conflict. -/
def upsertWithOcc (detail : DomainDetail) (expected : Int) :
    Option DomainDetail → Option DomainDetail
  | none => some { detail with version := 1 }
  | some current =>
    if current.version = expected then some { detail with version := expected + 1 } else none

/-- The version that the re-read of the retry returns. A row that the session has
loaded is not refreshed by a SELECT, and the first UPDATE has set its version in
the session whether or not it matched. -/
def sessionVersion (existing : Option DomainDetail) (found : DomainDetail) : Int :=
  match existing with
  | some read => read.version + 1
  | none => found.version

/-- The upsert with its one retry, after the version read `existing`. -/
def persistDomainDetail (detail : DomainDetail) (existing current : Option DomainDetail) :
    Option DomainDetail :=
  match upsertWithOcc detail (expectedVersion existing) current with
  | some row => some row
  | none => current.bind fun found => upsertWithOcc detail (sessionVersion existing found) current

/-- Where one execution of `process_task` stands. -/
inductive Stage
  | started
  | read (found : Option DomainDetail)
  | needsProcessing
  | lockAcquired
  | reread (found : Option DomainDetail)
  | stillStale
  | dnsStarted
  | ipValidated (dns : DnsResult)
  | httpStarted (dns : DnsResult)
  | httpSucceeded (dns : DnsResult) (http : HttpResult)
  | persisting (detail : DomainDetail) (existing : Option DomainDetail)
  | releasing
  | finished
  | crashed

/-- Between a successful `acquire` and the release. -/
def Stage.insideLock : Stage → Bool
  | .started | .read _ | .needsProcessing | .finished | .crashed => false
  | .lockAcquired | .reread _ | .stillStale | .dnsStarted | .ipValidated _ | .httpStarted _
  | .httpSucceeded _ _ | .persisting _ _ | .releasing => true

/-- A Redis command is answered, or the client raises before or after the server
has executed it. -/
inductive RedisCall
  | answered
  | raised (executed : Bool)
  deriving DecidableEq

inductive WorkerStep
  | readDetail
  | judge
  | acquire (call : RedisCall)
  | startDns
  | dnsAnswered (dns : DnsResult) (validation : Except Raised IpValidationResult)
  | startHttp
  | httpAnswered (http : HttpResult)
  | prepareDetail
  | commit
  | raise
  | release (call : RedisCall)
  | crash

/-- The Redis key and the committed row of one domain. -/
structure DomainCell (τ : Type*) where
  lock : Option (Key τ)
  detail : Option DomainDetail

section Worker

variable {τ : Type*} [DecidableEq τ]

def DomainCell.acquire (cell : DomainCell τ) (now : Instant) (token : τ) :
    RedisCall → DomainCell τ × Stage
  | .answered =>
    match setNx now (seconds lockTtlSeconds) token cell.lock with
    | some key => ({ cell with lock := some key }, .lockAcquired)
    | none => (cell, .finished)
  | .raised executed =>
    match executed, setNx now (seconds lockTtlSeconds) token cell.lock with
    | true, some key => ({ cell with lock := some key }, .finished)
    | _, _ => (cell, .finished)

def DomainCell.release (cell : DomainCell τ) (now : Instant) (token : τ) : RedisCall → DomainCell τ
  | .answered | .raised true => { cell with lock := compareAndDelete now token cell.lock }
  | .raised false => cell

/-- One step of the execution of `process_task` that draws the given token. -/
def workerNext (freshnessSeconds : Nat) (domainId : DomainId) (now : Instant) (token : τ)
    (cell : DomainCell τ) : Stage → WorkerStep → Option (DomainCell τ × Stage)
  | .started, .readDetail => some (cell, .read cell.detail)
  | .read found, .judge =>
    some (cell, if checkFreshness freshnessSeconds now found then .finished else .needsProcessing)
  | .needsProcessing, .acquire call => some (cell.acquire now token call)
  | .lockAcquired, .readDetail => some (cell, .reread cell.detail)
  | .reread found, .judge =>
    some (cell, if checkFreshness freshnessSeconds now found then .releasing else .stillStale)
  | .stillStale, .startDns => some (cell, .dnsStarted)
  | .dnsStarted, .dnsAnswered dns validation =>
    some (cell, if dns.isSuccess && allows validation then .ipValidated dns else .releasing)
  | .ipValidated dns, .startHttp => some (cell, .httpStarted dns)
  | .httpStarted dns, .httpAnswered http =>
    some (cell, if http.isSuccess then .httpSucceeded dns http else .releasing)
  | .httpSucceeded dns http, .prepareDetail =>
    some (cell, .persisting (observation domainId dns http now cell.detail) cell.detail)
  | .persisting detail existing, .commit =>
    match persistDomainDetail detail existing cell.detail with
    | some row => some ({ cell with detail := some row }, .releasing)
    | none => some (cell, .releasing)
  | .releasing, .release call => some (cell.release now token call, .finished)
  | .finished, _ | .crashed, _ => none
  | stage, .raise => some (cell, if stage.insideLock then .releasing else .finished)
  | _, .crash => some (cell, .crashed)
  | _, _ => none

end Worker

/-- All that happens to one domain: any number of executions of `process_task`,
the passing of time, and `create_job` clearing the detail. -/
inductive ProbingStep (ω : Type*)
  | worker (w : ω) (step : WorkerStep)
  | tick (elapsed : Nat)
  | clearDomainDetails

structure ProbingState (ω τ : Type*) where
  now : Instant
  cell : DomainCell τ
  stage : ω → Stage

section Probing

variable {ω τ : Type*} [DecidableEq ω] [DecidableEq τ]

def probingNext (freshnessSeconds : Nat) (domainId : DomainId) (uuid4 : ω → τ)
    (s : ProbingState ω τ) : ProbingStep ω → Option (ProbingState ω τ)
  | .worker w step =>
    (workerNext freshnessSeconds domainId s.now (uuid4 w) s.cell (s.stage w) step).map
      fun (cell, stage) => { s with cell := cell, stage := Function.update s.stage w stage }
  | .tick elapsed => some { s with now := s.now + elapsed }
  | .clearDomainDetails => some { s with cell := { s.cell with detail := none } }

end Probing

end DomainProcessing
