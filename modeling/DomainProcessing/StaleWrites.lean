import DomainProcessing.DetailHistory
import DomainProcessing.ServiceRuns

namespace DomainProcessing

open Tables Runs VersionedCell

variable {ω : Type*}

/-- The service, and for each writer the version that it has read and not used
yet. -/
structure WriterState (ω : Type*) where
  service : ServiceState
  reads : ω → Option (DomainId × Int)

namespace WriterState

def init : WriterState ω := ⟨.init, fun _ => none⟩

def details (s : WriterState ω) : DetailTable := s.service.db.details

def setDetails (s : WriterState ω) (details : DetailTable) : WriterState ω :=
  { s with service := { s.service with db := { s.service.db with details := details } } }

end WriterState

inductive WriterOp (ω : Type*)
  | read (writer : ω) (domainId : DomainId)
  | upsert (writer : ω) (detail : DomainDetail)
  | service (op : ServiceOp)

/-- A writer reads a row or its absence, and later upserts with the version it
read; the service goes on in between. -/
def writerNext [DecidableEq ω] (maxAttempts : Nat) (s : WriterState ω) :
    WriterOp ω → Option (WriterState ω)
  | .read writer domainId =>
    let expected := expectedVersion (s.details.get domainId)
    some { s with reads := Function.update s.reads writer (some (domainId, expected)) }
  | .upsert writer detail =>
    match s.reads writer with
    | none => none
    | some (domainId, expected) =>
      if detail.domainId = domainId then
        some { s.setDetails (upsertDetail detail expected s.details).1 with
          reads := Function.update s.reads writer none }
      else none
  | .service op =>
    (serviceNext maxAttempts s.service op).map fun service => { s with service := service }

abbrev WriterRun [DecidableEq ω] (maxAttempts : Nat) :=
  Run (@writerNext ω _ maxAttempts)

/-- What an operation means for the row of one domain. -/
def WriterOp.onDomain (domainId : DomainId) (s : WriterState ω) : WriterOp ω → CellOp DomainDetail
  | .upsert writer detail =>
    match s.reads writer with
    | none => .idle
    | some (_, expected) => if detail.domainId = domainId then .put detail expected else .idle
  | .service (.createJob sub) =>
    if ((createJob sub s.service.db).1.details.get domainId).isNone then .clear else .idle
  | .read _ _ | .service _ => .idle

/-- The history of one domain's row. -/
def detailTrace (domainId : DomainId) (trace : List (WriterState ω × WriterOp ω)) :
    List (Option DomainDetail × CellOp DomainDetail) :=
  trace.map fun p => (p.1.details.get domainId, p.2.onDomain domainId p.1)

theorem detailTrace_append (domainId : DomainId) (later earlier : List (WriterState ω × WriterOp ω)) :
    detailTrace domainId (later ++ earlier) =
      detailTrace domainId later ++ detailTrace domainId earlier :=
  List.map_append

/-- No upsert of the domain's row succeeds and no reactivation deletes it. -/
def Undisturbed (domainId : DomainId) (trace : List (WriterState ω × WriterOp ω)) : Prop :=
  ∀ p ∈ detailTrace domainId trace,
    writes detailVersioning p.1 p.2 = false ∧ deletes p.1 p.2 = false

variable {maxAttempts : Nat} {s s' r : WriterState ω} {op : WriterOp ω}
  {trace : List (WriterState ω × WriterOp ω)} {writer : ω} {domainId : DomainId} {expected : Int}

theorem level_eq_expectedVersion (cell : Option DomainDetail) :
    level detailVersioning cell = expectedVersion cell := by
  cases cell <;> rfl

theorem upsert_succeeded {detail : DomainDetail} (details : DetailTable) :
    (upsertDetail detail expected details).2.succeeded =
      (put detailVersioning detail expected (details.get detail.domainId)).isSome := by
  have counted := writes_onDomain detail.domainId details (.upsertWithOcc detail expected)
  simpa [DetailOp.onDomain, DetailOp.upserts, writes] using counted.symm

theorem service_detail {op : ServiceOp} {service : ServiceState}
    (h : serviceNext maxAttempts s.service op = some service) (domainId : DomainId) :
    next detailVersioning (s.details.get domainId) (WriterOp.onDomain domainId s (.service op)) =
      some (service.db.details.get domainId) := by
  cases op with
  | createJob sub =>
    cases Option.some.inj h
    simp only [WriterOp.onDomain]
    rcases createJob_detail sub s.service.db domainId with same | cleared
    · split
      next gone => exact congrArg some (Option.isNone_iff_eq_none.mp gone).symm
      next => exact congrArg some same.symm
    · rw [cleared]
      rfl
  | createRefreshTasks | claimTasks | recoveryCycle | writeCompleteTask | writeFailTask
  | writeFailTaskWithDeactivation | writeRescheduleTask =>
    rcases serviceNext_detail h domainId with same | ⟨_, he, _⟩
    · exact congrArg some same.symm
    · cases he

variable [DecidableEq ω]

theorem writerNext_read (h : writerNext maxAttempts s (.read writer domainId) = some s') :
    s'.details = s.details ∧ s'.reads = Function.update s.reads writer
      (some (domainId, expectedVersion (s.details.get domainId))) := by
  cases Option.some.inj h
  exact ⟨rfl, rfl⟩

theorem writerNext_upsert {detail : DomainDetail}
    (h : writerNext maxAttempts s (.upsert writer detail) = some s') :
    ∃ expected, s.reads writer = some (detail.domainId, expected) ∧
      s'.details = (upsertDetail detail expected s.details).1 ∧
      s'.reads = Function.update s.reads writer none := by
  simp only [writerNext] at h
  split at h
  next => cases h
  next domainId expected held =>
    obtain ⟨same, h⟩ := Option.ite_none_right_eq_some.mp h
    cases Option.some.inj h
    exact ⟨expected, same ▸ held, rfl, rfl⟩

theorem writerNext_detail (h : writerNext maxAttempts s op = some s') (domainId : DomainId) :
    next detailVersioning (s.details.get domainId) (op.onDomain domainId s) =
      some (s'.details.get domainId) := by
  cases op with
  | read writer other =>
    cases Option.some.inj h
    rfl
  | upsert writer detail =>
    obtain ⟨expected, held, after, _⟩ := writerNext_upsert h
    have call : detailNext s.details (.upsertWithOcc detail expected) = some s'.details := by
      rw [after]
      rfl
    have seen := detailNext_get domainId call
    simp only [WriterOp.onDomain, held]
    exact seen
  | service op =>
    obtain ⟨service, hs, rfl⟩ := Option.map_eq_some_iff.mp h
    exact service_detail hs domainId

theorem detailTrace_run (domainId : DomainId) (run : WriterRun maxAttempts s trace s') :
    Run (next detailVersioning) (s.details.get domainId) (detailTrace domainId trace)
      (s'.details.get domainId) :=
  run.map (fun s => s.details.get domainId) (fun s op => op.onDomain domainId s)
    fun h => writerNext_detail h domainId

/-- A version that a writer holds is the one at its latest read. -/
theorem held_read (run : WriterRun maxAttempts .init trace s)
    (held : s.reads writer = some (domainId, expected)) :
    ∃ mid r earlier, trace = mid ++ (r, .read writer domainId) :: earlier ∧
      (∀ p ∈ mid, ∀ other, p.2 ≠ .read writer other) ∧
      expected = expectedVersion (r.details.get domainId) := by
  induction run with
  | start => cases held
  | @step trace s op t run h ih =>
    have extend : s.reads writer = some (domainId, expected) →
        (∀ other, op ≠ .read writer other) →
        ∃ mid r earlier, (s, op) :: trace = mid ++ (r, .read writer domainId) :: earlier ∧
          (∀ p ∈ mid, ∀ other, p.2 ≠ .read writer other) ∧
          expected = expectedVersion (r.details.get domainId) := by
      intro before unread
      obtain ⟨mid, r, earlier, rfl, latest, same⟩ := ih before
      exact ⟨(s, op) :: mid, r, earlier, rfl, List.forall_mem_cons.mpr ⟨unread, latest⟩, same⟩
    cases op with
    | read reader other =>
      obtain ⟨_, reads⟩ := writerNext_read h
      rw [reads] at held
      by_cases hw : writer = reader
      · subst hw
        rw [Function.update_self] at held
        cases held
        exact ⟨[], s, trace, rfl, by simp, rfl⟩
      · rw [Function.update_of_ne hw] at held
        refine extend held ?_
        intro other he
        cases he
        exact hw rfl
    | upsert caller detail =>
      obtain ⟨_, _, _, reads⟩ := writerNext_upsert h
      rw [reads] at held
      by_cases hw : writer = caller
      · subst hw
        simp at held
      · rw [Function.update_of_ne hw] at held
        exact extend held (by simp)
    | service op =>
      obtain ⟨service, _, rfl⟩ := Option.map_eq_some_iff.mp h
      exact extend held (by simp)

/-- When an upsert that succeeds has overwritten nothing that came after its
read: the counter that a reactivation restarts must not be back at the version
read. -/
theorem upsert_undisturbed_iff {later before : List (WriterState ω × WriterOp ω)}
    {call : WriterState ω} {detail : DomainDetail} (run : WriterRun maxAttempts .init trace s)
    (parts : trace = later ++ (call, .upsert writer detail) :: before) :
    ∃ mid r earlier expected, before = mid ++ (r, .read writer detail.domainId) :: earlier ∧
      (∀ p ∈ mid, ∀ other, p.2 ≠ .read writer other) ∧
      call.reads writer = some (detail.domainId, expected) ∧
      expected = expectedVersion (r.details.get detail.domainId) ∧
      (((upsertDetail detail expected call.details).2.succeeded = true →
          Undisturbed detail.domainId mid) ↔
        (∀ p ∈ detailTrace detail.domainId mid, deletes p.1 p.2 = false) ∨
          writesSinceClear detailVersioning (detailTrace detail.domainId before) ≠ 0 ∧
          (writesSinceClear detailVersioning (detailTrace detail.domainId before) : Int) ≠
            expected) := by
  subst parts
  obtain ⟨_, reached, _⟩ := run.of_append
  cases reached with
  | step reached h =>
    obtain ⟨expected, held, _, _⟩ := writerNext_upsert h
    obtain ⟨mid, r, earlier, rfl, latest, same⟩ := held_read reached held
    obtain ⟨u, first, between⟩ := reached.of_append
    refine ⟨mid, r, earlier, expected, rfl, latest, held, same, ?_⟩
    have unchanged : u.details = r.details := by
      cases first with
      | step _ hr => exact (writerNext_read hr).1
    have version : level detailVersioning (u.details.get detail.domainId) = expected := by
      rw [level_eq_expectedVersion, unchanged, same]
    have sinceStart := detailTrace_run detail.domainId first
    have sinceRead := detailTrace_run detail.domainId between
    have accepted := @accepted_undisturbed_iff _ _ _ _ _ _ detail sinceStart sinceRead
    rw [version, ← upsert_succeeded, ← detailTrace_append] at accepted
    exact accepted

/-- The task of the first job is claimed and completed with an observation; two days
later, when that is out of date, the tasks of three more jobs for the domain are claimed. -/
def observedOps : List (WriterOp Nat) :=
  [.service (.createJob oneTaskSubmission), .service (.claimTasks 1 120 none 0), .read 0 11,
    .upsert 0 (plainDetail 11), .service (.writeCompleteTask 1 5), .service (.createJob (laterSubmission 2)),
    .service (.createJob (laterSubmission 3)), .service (.createJob (laterSubmission 4)),
    .service (.claimTasks 3 (seconds 172920) none (seconds 172800))]

/-- A worker does not get the lock for the task of the fourth job. -/
def contended (now : Instant) : WriterOp Nat :=
  .service (.writeRescheduleTask 40 "Lock contention" now (.unjittered now))

/-- Another writer reads too, the task of the fourth job is put off until it is out of
attempts and its domain deactivated, and the domain is submitted again. -/
def reactivatedOps : List (WriterOp Nat) :=
  [.read 2 11, contended (seconds 172801), .service (.claimTasks 1 (seconds 173040) none (seconds 172920)),
    contended (seconds 172921), .service (.claimTasks 1 (seconds 173280) none (seconds 173160)),
    contended (seconds 173161), .service (.createJob (laterSubmission 5))]

/-- The other writer's upsert has found no row and inserted what it observed. -/
theorem upsert_undisturbed_iff_insertion :
    ∃ call s : WriterState Nat, exec (writerNext 3) .init (observedOps ++ reactivatedOps) = some call ∧
      writerNext 3 call (.upsert 2 (plainDetail 11)) = some s ∧
      ∃ mid r earlier expected,
        steps (writerNext 3) .init (observedOps ++ reactivatedOps) =
          mid ++ (r, .read 2 11) :: earlier ∧
        expected = expectedVersion (r.details.get 11) ∧
        (((upsertDetail (plainDetail 11) expected call.details).2.succeeded = true →
            Undisturbed 11 mid) ↔
          (∀ p ∈ detailTrace 11 mid, deletes p.1 p.2 = false) ∨
            writesSinceClear detailVersioning
              (detailTrace 11 (steps (writerNext 3) .init (observedOps ++ reactivatedOps))) ≠ 0 ∧
            (writesSinceClear detailVersioning
              (detailTrace 11 (steps (writerNext 3) .init (observedOps ++ reactivatedOps))) : Int) ≠
                expected) := by
  have enabled : ((exec (writerNext 3) .init (observedOps ++ reactivatedOps)).bind fun call =>
      writerNext 3 call (.upsert 2 (plainDetail 11))).isSome = true := by
    decide +kernel
  obtain ⟨s, hs⟩ := Option.isSome_iff_exists.mp enabled
  obtain ⟨call, hcall, hs⟩ := Option.bind_eq_some_iff.mp hs
  have parts : (call, WriterOp.upsert 2 (plainDetail 11)) ::
      steps (writerNext 3) .init (observedOps ++ reactivatedOps) = [] ++ _ := rfl
  obtain ⟨mid, r, earlier, expected, parts, _, _, same, holds⟩ :=
    upsert_undisturbed_iff ((exec_run hcall).step hs) parts
  exact ⟨call, s, hcall, hs, mid, r, earlier, expected, parts, same, holds⟩

/-- The reactivation has deleted the row that writer 1 read, and its upsert
replaces the row that came after. -/
theorem upsert_over_reactivation :
    ∃ r u call : WriterState Nat, exec (writerNext 3) .init observedOps = some r ∧
      writerNext 3 r (.read 1 11) = some u ∧
      exec (writerNext 3) u (reactivatedOps ++ [.upsert 2 (plainDetail 11)]) = some call ∧
      expectedVersion (r.details.get 11) = 1 ∧ call.reads 1 = some (11, 1) ∧
      (upsertDetail (plainDetail 11) 1 call.details).2.succeeded = true ∧
      ¬Undisturbed 11
        (steps (writerNext 3) u (reactivatedOps ++ [.upsert 2 (plainDetail 11)])) := by
  have enabled : ((exec (writerNext 3) .init observedOps).bind fun r =>
      (writerNext 3 r (.read 1 11)).bind fun u =>
        (exec (writerNext 3) u (reactivatedOps ++ [.upsert 2 (plainDetail 11)])).map fun call =>
          (expectedVersion (r.details.get 11), call.reads 1,
            (upsertDetail (plainDetail 11) 1 call.details).2.succeeded,
            (detailTrace 11 (steps (writerNext 3) u
              (reactivatedOps ++ [.upsert 2 (plainDetail 11)]))).any fun p => deletes p.1 p.2)) =
      some (1, some (11, 1), true, true) := by
    decide +kernel
  obtain ⟨r, hr, enabled⟩ := Option.bind_eq_some_iff.mp enabled
  obtain ⟨u, hu, enabled⟩ := Option.bind_eq_some_iff.mp enabled
  obtain ⟨call, hcall, outcome⟩ := Option.map_eq_some_iff.mp enabled
  obtain ⟨version, outcome⟩ := Prod.mk.inj outcome
  obtain ⟨held, outcome⟩ := Prod.mk.inj outcome
  obtain ⟨succeeded, deleted⟩ := Prod.mk.inj outcome
  refine ⟨r, u, call, hr, hu, hcall, version, held, succeeded, fun undisturbed => ?_⟩
  obtain ⟨p, hp, gone⟩ := List.any_eq_true.mp deleted
  rw [(undisturbed p hp).2] at gone
  cases gone

end DomainProcessing
