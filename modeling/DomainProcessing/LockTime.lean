import DomainProcessing.DomainProbing
import Mathlib.Algebra.BigOperators.Group.List.Basic

namespace DomainProcessing

/-- The timeouts that the resolver and the HTTP client are built with. Nothing
reads `tls_timeout_seconds` and `total_processing_timeout_seconds`. -/
structure TimeoutSettings where
  dnsTimeout : Int
  connectTimeout : Int
  readTimeout : Int
  dnsTimeout_pos : 0 < dnsTimeout
  connectTimeout_pos : 0 < connectTimeout
  readTimeout_pos : 0 < readTimeout

def TimeoutSettings.defaults : TimeoutSettings :=
  ⟨seconds 3, seconds 5, seconds 10, by decide, by decide, by decide⟩

/-- The operations that have a timeout of their own in `httpx.Timeout`; a TLS
handshake is one of the connects. -/
inductive SocketOp
  | pool
  | connect
  | write
  | read
  deriving DecidableEq

/-- The `httpx.Timeout` of `HttpClient.__init__`. -/
def SocketOp.timeout (settings : TimeoutSettings) : SocketOp → Int
  | .pool | .connect => settings.connectTimeout
  | .write | .read => settings.readTimeout

/-- How the `get` of one URL ends; after an exception other than a redirect
error the next URL is tried. -/
inductive ExchangeEnd
  | responded
  | tooManyRedirects
  | raised
  deriving DecidableEq

/-- One URL of `probe`, with the socket operations it takes. -/
structure Exchange where
  operations : List SocketOp
  ending : ExchangeEnd

/-- What `process_task` does between the acquire and the release: it finds fresh
detail, it gets no allowed address, or it probes. -/
inductive LockedWork
  | fresh
  | unresolved
  | probed (https http : Exchange)

/-- The operations of both URLs that are carried out. -/
def LockedWork.operations : LockedWork → List SocketOp
  | .fresh | .unresolved => []
  | .probed https http =>
    https.operations ++ if https.ending = .raised then http.operations else []

/-- How long everything takes: the three lookups, which run together, and the
socket operations one after the other. -/
structure Timing where
  a : Int
  aaaa : Int
  cname : Int
  operations : List Int

/-- Every single operation respects its timeout. -/
structure Timing.Respects (t : Timing) (settings : TimeoutSettings) (work : LockedWork) : Prop where
  a : 0 ≤ t.a ∧ t.a ≤ settings.dnsTimeout
  aaaa : 0 ≤ t.aaaa ∧ t.aaaa ≤ settings.dnsTimeout
  cname : 0 ≤ t.cname ∧ t.cname ≤ settings.dnsTimeout
  operations : List.Forall₂ (fun op d => 0 ≤ d ∧ d ≤ op.timeout settings) work.operations t.operations

/-- From the acquire to the release; `rest` is what the database and the lock's
own commands take. -/
def LockedWork.heldTime (work : LockedWork) (rest : Int) (t : Timing) : Int :=
  match work with
  | .fresh => rest
  | .unresolved | .probed _ _ => rest + (max t.a (max t.aaaa t.cname) + t.operations.sum)

/-- The longest that the network can take. -/
def LockedWork.longest (work : LockedWork) (settings : TimeoutSettings) : Int :=
  match work with
  | .fresh => 0
  | .unresolved | .probed _ _ =>
    settings.dnsTimeout + (work.operations.map (SocketOp.timeout settings)).sum

section Bound

variable {settings : TimeoutSettings} {work : LockedWork} {rest ttl : Int} {t : Timing}

theorem SocketOp.timeout_nonneg (settings : TimeoutSettings) (op : SocketOp) : 0 ≤ op.timeout settings := by
  have connect := settings.connectTimeout_pos
  have read := settings.readTimeout_pos
  cases op <;> simp only [SocketOp.timeout] <;> omega

theorem sum_le_timeouts {operations : List SocketOp} {durations : List Int}
    (h : List.Forall₂ (fun op d => 0 ≤ d ∧ d ≤ op.timeout settings) operations durations) :
    durations.sum ≤ (operations.map (SocketOp.timeout settings)).sum := by
  induction h with
  | nil => exact le_refl _
  | cons head _ ih =>
    rw [List.sum_cons, List.map_cons, List.sum_cons]
    have bound := head.2
    omega

/-- Every operation uses its timeout up. -/
def LockedWork.slowest (work : LockedWork) (settings : TimeoutSettings) : Timing :=
  ⟨settings.dnsTimeout, settings.dnsTimeout, settings.dnsTimeout,
    work.operations.map (SocketOp.timeout settings)⟩

theorem slowest_respects (work : LockedWork) (settings : TimeoutSettings) :
    (work.slowest settings).Respects settings work := by
  have dns : 0 ≤ settings.dnsTimeout ∧ settings.dnsTimeout ≤ settings.dnsTimeout :=
    ⟨settings.dnsTimeout_pos.le, le_refl _⟩
  refine ⟨dns, dns, dns, ?_⟩
  show List.Forall₂ _ work.operations (work.operations.map (SocketOp.timeout settings))
  induction work.operations with
  | nil => exact List.Forall₂.nil
  | cons op operations ih => exact List.Forall₂.cons ⟨op.timeout_nonneg settings, le_refl _⟩ ih

theorem heldTime_slowest (work : LockedWork) (settings : TimeoutSettings) (rest : Int) :
    work.heldTime rest (work.slowest settings) = rest + work.longest settings := by
  cases work with
  | fresh => exact (add_zero rest).symm
  | unresolved | probed => simp [LockedWork.heldTime, LockedWork.slowest, LockedWork.longest]

theorem heldTime_le (h : t.Respects settings work) (rest : Int) :
    work.heldTime rest t ≤ rest + work.longest settings := by
  have lookups : max t.a (max t.aaaa t.cname) ≤ settings.dnsTimeout :=
    max_le h.a.2 (max_le h.aaaa.2 h.cname.2)
  have operations := sum_le_timeouts h.operations
  cases work with
  | fresh => exact (add_zero rest).symm.le
  | unresolved | probed =>
    simp only [LockedWork.heldTime, LockedWork.longest]
    omega

/-- The longest case decides whether all cases stay below a bound. -/
theorem heldTime_lt_iff : (∀ t : Timing, t.Respects settings work → work.heldTime rest t < ttl) ↔
    rest + work.longest settings < ttl := by
  constructor
  · intro h
    have slow := h _ (slowest_respects work settings)
    rwa [heldTime_slowest] at slow
  · intro h t respects
    exact lt_of_le_of_lt (heldTime_le respects rest) h

end Bound

def SocketOp.connects : SocketOp → Bool
  | .pool | .connect => true
  | .write | .read => false

theorem sum_default_timeouts (operations : List SocketOp) :
    (operations.map (SocketOp.timeout .defaults)).sum =
      seconds (5 * operations.countP SocketOp.connects + 10 * operations.countP fun op => !op.connects) := by
  induction operations with
  | nil => rfl
  | cons op operations ih =>
    rw [List.map_cons, List.sum_cons, ih]
    cases op <;>
      simp [SocketOp.timeout, SocketOp.connects, TimeoutSettings.defaults, seconds, List.countP_cons] <;>
      omega

/-- The work fits into the lock's TTL, by the number of operations it takes. -/
def LockedWork.FitsTtl (rest : Int) : LockedWork → Prop
  | .fresh => rest < seconds lockTtlSeconds
  | .unresolved => rest + seconds 3 < seconds lockTtlSeconds
  | .probed https http =>
    rest + seconds (3 + 5 * (LockedWork.probed https http).operations.countP SocketOp.connects +
      10 * (LockedWork.probed https http).operations.countP fun op => !op.connects) < seconds lockTtlSeconds

/-- With the default timeouts, the lock outlives every timing of the work
exactly when the work takes few enough operations. -/
theorem lock_outlives_work_iff (work : LockedWork) (rest : Int) :
    (∀ t : Timing, t.Respects .defaults work → work.heldTime rest t < seconds lockTtlSeconds) ↔
      work.FitsTtl rest := by
  rw [heldTime_lt_iff]
  cases work with
  | fresh => simp [LockedWork.longest, LockedWork.FitsTtl]
  | unresolved => simp [LockedWork.longest, LockedWork.FitsTtl, LockedWork.operations, TimeoutSettings.defaults]
  | probed https http =>
    have dns : TimeoutSettings.defaults.dnsTimeout = seconds 3 := rfl
    simp only [LockedWork.longest, LockedWork.FitsTtl, sum_default_timeouts, dns, seconds]
    omega

/-- A server that sends six pieces of its answer, with nine seconds before each. -/
def drippingServer : LockedWork := .probed ⟨[.connect, .write] ++ List.replicate 6 .read, .responded⟩ ⟨[], .raised⟩

def drippingTiming : Timing := ⟨seconds 2, seconds 2, seconds 2, [seconds 4, seconds 1] ++ List.replicate 6 (seconds 9)⟩

theorem lock_outlives_work_dripping : drippingTiming.Respects .defaults drippingServer ∧
    ¬drippingServer.heldTime 0 drippingTiming < seconds lockTtlSeconds := by
  refine ⟨⟨by decide, by decide, by decide, ?_⟩, by decide⟩
  show List.Forall₂ _ [SocketOp.connect, .write, .read, .read, .read, .read, .read, .read]
    [seconds 4, seconds 1, seconds 9, seconds 9, seconds 9, seconds 9, seconds 9, seconds 9]
  simp [SocketOp.timeout, TimeoutSettings.defaults, seconds]

end DomainProcessing
