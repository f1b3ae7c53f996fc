import DomainProcessing.Dispatch

namespace DomainProcessing

structure DnsResult where
  ipsV4 : List String
  ipsV6 : List String
  cname : Option String
  error : Option String

def DnsResult.allIps (r : DnsResult) : List String := r.ipsV4 ++ r.ipsV6

def DnsResult.isSuccess (r : DnsResult) : Bool := r.error.isNone && !r.allIps.isEmpty

structure IpValidationResult where
  isAllowed : Bool
  ip : String
  reason : Option String

structure HttpResult where
  statusCode : Int
  headers : List (String × String)
  responseTimeMs : Int
  pageTitle : Option String
  error : Option String

/-- The truth value of an optional string. -/
def truthy (text : Option String) : Bool := text.any (fun e => e ≠ "")

/-- An optional string inside an f-string. -/
def formatted : Option String → String
  | none => "None"
  | some e => e

namespace HttpResult

def isSuccess (r : HttpResult) : Bool :=
  r.error.isNone && decide (200 ≤ r.statusCode ∧ r.statusCode < 400)

def isClientError (r : HttpResult) : Bool := decide (400 ≤ r.statusCode ∧ r.statusCode < 500)

def isServerError (r : HttpResult) : Bool := decide (500 ≤ r.statusCode ∧ r.statusCode < 600)

def isRetryableError (r : HttpResult) : Bool := truthy r.error || r.isServerError

def isPermanentFailure (r : HttpResult) : Bool :=
  !truthy r.error && r.isClientError && decide (r.statusCode ≠ 408 ∧ r.statusCode ≠ 429)

end HttpResult

inductive ExceptionKind
  | timeoutError
  | httpxTimeoutException
  | httpxConnectError
  | httpxTooManyRedirects
  | sqlalchemyOperationalError
  | sqlalchemyDisconnectionError
  | redisError
  | frozenInstanceError
  | other
  deriving DecidableEq, Repr

structure Raised where
  kind : ExceptionKind
  text : String

/-- `_validate_ips` has returned, with a permitted address. -/
def allows : Except Raised IpValidationResult → Bool
  | .error _ => false
  | .ok validation => validation.isAllowed

def classifyException : ExceptionKind → ErrorCategory
  | .timeoutError | .httpxTimeoutException | .httpxConnectError => .retryable
  | .httpxTooManyRedirects => .permanent
  | .sqlalchemyOperationalError | .sqlalchemyDisconnectionError | .redisError => .retryable
  | .frozenInstanceError | .other => .permanent

/-- What `acquire` meets: `SET NX` succeeds, finds the key, or raises; or the
first connection to Redis raises. -/
inductive LockAnswer
  | acquired
  | held
  | setRaised (text : String)
  | connectRaised (text : String)
  deriving DecidableEq, Repr

/-- Everything a run of `process_task` is told by its environment. -/
structure Attempt where
  now : Instant
  draw : RetryDraw
  domainFound : Bool
  freshBefore : Bool
  lock : LockAnswer
  freshAfter : Bool
  dns : DnsResult
  validate : String → IpValidationResult
  probe : Except Raised HttpResult
  persisted : Except Raised Unit

/-- The final write of an attempt, and whether the attempt did DNS or HTTP work
that did not succeed. -/
structure AttemptResult where
  write : WorkerWrite
  failedWork : Bool

namespace Attempt

variable (a : Attempt)

def reschedule (error : String) : WorkerWrite := .reschedule error a.now a.draw

/-- The outer `except` of `process_task`. -/
def handleException (e : Raised) : WorkerWrite :=
  if classifyException e.kind = .retryable then a.reschedule e.text else .fail e.text a.now

/-- `classification` is assigned to a frozen dataclass, which raises, so the
handler only ever sees the default. -/
def dnsClassification : String := "unknown"

def handleDnsFailure : WorkerWrite :=
  if truthy a.dns.error then
    a.handleException ⟨.frozenInstanceError, "cannot assign to field 'classification'"⟩
  else if dnsClassification = "permanent" then
    .failWithDeactivation s!"DNS resolution failed: {formatted a.dns.error}" .dnsPermanentFailure a.now
  else a.reschedule s!"DNS error: {formatted a.dns.error}"

/-- The import in the first branch of `_validate_ips` makes `IpValidationResult`
a local name of the function, so its last line raises an `UnboundLocalError`. -/
def unboundLocalError : Raised :=
  ⟨.other, "cannot access local variable 'IpValidationResult' where it is not associated with a value"⟩

def validateIps : Except Raised IpValidationResult :=
  match a.dns.allIps with
  | [] => .ok ⟨false, "", some "No IP addresses resolved"⟩
  | ip :: rest =>
    match (ip :: rest).find? (fun ip => (a.validate ip).isAllowed) with
    | some allowed => .ok (a.validate allowed)
    | none => .error unboundLocalError

/-- The address that `_validate_ips` settles on. -/
def validatedIp (a : Attempt) : Option String :=
  match a.validateIps with
  | .error _ => none
  | .ok validation => if validation.isAllowed then some validation.ip else none

def handleHttpFailure (http : HttpResult) : WorkerWrite :=
  if http.isRetryableError then a.reschedule s!"HTTP error: {formatted http.error}"
  else if http.isPermanentFailure then
    .failWithDeactivation
      (if truthy http.error then s!"HTTP {http.statusCode}: {formatted http.error}"
        else s!"HTTP {http.statusCode}") .httpPermanentFailure a.now
  else .nothing

/-- From the HTTP probe to the write phase. -/
def probeServer : AttemptResult :=
  match a.probe with
  | .error e => ⟨a.handleException e, true⟩
  | .ok http =>
    if http.isSuccess then
      match a.persisted with
      | .error e => ⟨a.handleException e, false⟩
      | .ok () => ⟨.complete a.now, false⟩
    else ⟨a.handleHttpFailure http, true⟩

/-- From the DNS lookup to the write phase, under the domain lock. -/
def probeDomain : AttemptResult :=
  if a.dns.isSuccess then
    match a.validateIps with
    | .error e => ⟨a.handleException e, true⟩
    | .ok validation =>
      if validation.isAllowed then a.probeServer
      else ⟨.failWithDeactivation "SSRF rejection" .ssrfRejection a.now, true⟩
  else ⟨a.handleDnsFailure, true⟩

def processTask : AttemptResult :=
  if a.domainFound then
    if a.freshBefore then ⟨.complete a.now, false⟩
    else
      match a.lock with
      | .connectRaised text => ⟨a.handleException ⟨.redisError, text⟩, false⟩
      | .held | .setRaised _ => ⟨a.reschedule "Lock contention", false⟩
      | .acquired => if a.freshAfter then ⟨.complete a.now, false⟩ else a.probeDomain
  else ⟨.fail "Domain not found" a.now, false⟩

/-- The attempt asks for the domain lock and does not get it. -/
def lockFailed : Bool := a.domainFound && !a.freshBefore && decide (a.lock ≠ .acquired)

end Attempt

/-- The write phase raised something else than the final OCC conflict. -/
def Attempt.databaseError (a : Attempt) : Bool :=
  match a.persisted with
  | .error e => decide (e.kind ≠ .other)
  | .ok () => false

/-- The writes that neither exhaust a task nor deactivate a domain. -/
def WorkerWrite.plain : WorkerWrite → Bool
  | .complete _ | .fail _ _ | .nothing => true
  | .failWithDeactivation _ _ _ | .reschedule _ _ _ => false

namespace Attempt

variable {a : Attempt}

theorem probeDomain_of_allows (resolved : a.dns.isSuccess = true) (allowed : allows a.validateIps = true) :
    a.probeDomain = a.probeServer := by
  rw [probeDomain, if_pos resolved]
  cases validated : a.validateIps with
  | error e =>
    rw [validated] at allowed
    cases allowed
  | ok validation =>
    rw [validated] at allowed
    exact if_pos allowed

theorem allows_of_validated (validated : a.validatedIp.isSome) : allows a.validateIps = true := by
  unfold validatedIp at validated
  split at validated
  next => cases validated
  next validation same =>
    split at validated
    next allowed =>
      rw [same]
      exact allowed
    next => cases validated

theorem probeServer_plain (hd : a.databaseError = false) (hw : a.probeServer.failedWork = false) :
    a.probeServer.write.plain = true := by
  unfold probeServer at hw ⊢
  split at hw
  · cases hw
  · split at hw
    · split at hw
      next e he =>
        have kind : e.kind = .other := by simpa [databaseError, he] using hd
        simp [handleException, classifyException, WorkerWrite.plain, *]
      next he => simp [WorkerWrite.plain, *]
    · cases hw

theorem probeDomain_plain (hd : a.databaseError = false) (hw : a.probeDomain.failedWork = false) :
    a.probeDomain.write.plain = true := by
  unfold probeDomain at hw ⊢
  split at hw
  next resolved =>
    rw [if_pos resolved]
    split at hw
    next => cases hw
    next validation validated =>
      split at hw
      next allowed =>
        simp only [allowed, if_true]
        exact probeServer_plain hd hw
      next => cases hw
  next => cases hw

/-- A failed lock ends the attempt in a reschedule without any work done. -/
theorem lockFailed_reschedules (h : a.lockFailed = true) :
    (∃ error, a.processTask.write = a.reschedule error) ∧ a.processTask.failedWork = false := by
  simp only [lockFailed, Bool.and_eq_true, Bool.not_eq_true', decide_eq_true_eq] at h
  obtain ⟨⟨hf, hb⟩, hl⟩ := h
  unfold processTask
  rw [if_pos hf, if_neg (by simp [hb])]
  cases hlock : a.lock with
  | acquired => exact absurd hlock hl
  | held => exact ⟨⟨_, rfl⟩, rfl⟩
  | setRaised text => exact ⟨⟨_, rfl⟩, rfl⟩
  | connectRaised text => exact ⟨⟨text, rfl⟩, rfl⟩

/-- Apart from a failed lock, only work that did not succeed leads to a
reschedule or a deactivation. -/
theorem processTask_plain (hd : a.databaseError = false) (hl : a.lockFailed = false)
    (hw : a.processTask.failedWork = false) : a.processTask.write.plain = true := by
  unfold processTask at hw ⊢
  by_cases hf : a.domainFound = true
  · rw [if_pos hf] at hw ⊢
    by_cases hb : a.freshBefore = true
    · rw [if_pos hb]
      rfl
    · rw [if_neg hb] at hw ⊢
      have acquired : a.lock = .acquired := by
        simpa [lockFailed, hf, hb] using hl
      rw [acquired] at hw ⊢
      by_cases ha : a.freshAfter = true
      · simp only [if_pos ha]
        rfl
      · simp only [if_neg ha] at hw ⊢
        exact probeDomain_plain hd hw
  · rw [if_neg hf]
    rfl

end Attempt

end DomainProcessing
