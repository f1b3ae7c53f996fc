import DomainProcessing.HttpProbe
import DomainProcessing.JobViews

namespace DomainProcessing

open Tables Runs

variable {ω ι : Type*} {settings : AppSettings} {maxAttempts : Nat} {text : PythonText}
  {s s' : SystemState ω ι} {op : SystemOp ω ι} {trace : List (SystemState ω ι × SystemOp ω ι)}

/-- The result of an execution's probe is one that `probe` returns, on whatever network. -/
def ByProbe (text : PythonText) (op : SystemOp ω ι) : Prop :=
  ∀ worker dns http, op = .work worker (.probed dns http) → ∃ maxResponseReadBytes network validatedIp,
    http = (probe text maxResponseReadBytes network validatedIp).result

/-- What an execution holds of a probed page. -/
def ExecutionStage.page : ExecutionStage → Option (Option String × List (String × String))
  | .planned _ _ http _ | .versionRead _ _ http _ _ => some (http.pageTitle, http.headers)
  | .persisting _ detail _ => some (detail.pageTitle, detail.responseHeaders)
  | _ => none

structure SystemState.HoldsSafe (text : PythonText) (s : SystemState ω ι) : Prop where
  stages : ∀ worker page, (s.stage worker).page = some page → SafeContent text page.1 page.2
  details : ∀ detail ∈ s.details.rows, SafeContent text detail.pageTitle detail.responseHeaders

/-- A page that an execution holds is the one of the stage before, or has just been probed. -/
theorem StageStep.page_origin {stage stage' : ExecutionStage} {step : ExecutionStep}
    (h : StageStep settings s stage step stage') {page : Option String × List (String × String)}
    (held : stage'.page = some page) :
    stage.page = some page ∨ ∃ dns http, step = .probed dns http ∧ page = (http.pageTitle, http.headers) := by
  cases h with
  | probed =>
    cases Option.some.inj held
    exact Or.inr ⟨_, _, rfl, rfl⟩
  | readVersion | stampDetail => exact Or.inl held
  | start | reuse | process | acquireLock | reuseAfterLock | probe | ended => cases held

theorem holdsSafe_init : (SystemState.init : SystemState ω ι).HoldsSafe text := by
  constructor
  · intro worker page held
    cases held
  · intro detail mem
    cases mem

variable [DecidableEq ω] [DecidableEq ι]

theorem SystemState.HoldsSafe.step (safe : s.HoldsSafe text) (probed : ByProbe text op)
    (h : systemNext settings maxAttempts s op = some s') : s'.HoldsSafe text := by
  constructor
  · intro worker page held
    rcases stage_step h worker with same | ⟨step, rfl, moved⟩
    · exact safe.stages worker page (same ▸ held)
    · rcases moved.page_origin held with before | ⟨dns, http, rfl, rfl⟩
      · exact safe.stages worker page before
      · obtain ⟨limit, network, ip, rfl⟩ := probed worker dns http rfl
        exact probe_safe text limit network ip
  · intro detail mem
    have found : s'.details.get detail.domainId = some detail := Table.get_eq_some_iff.mpr ⟨mem, rfl⟩
    rcases systemNext_detail h detail.domainId with same | ⟨_, _, _, cleared⟩ |
      ⟨worker, task, written, existing, v, _, persisting, _, stored⟩
    · rw [same] at found
      exact safe.details detail (Table.get_eq_some_iff.mp found).1
    · rw [cleared] at found
      cases found
    · rw [stored] at found
      cases Option.some.inj found
      exact safe.stages worker _ (congrArg ExecutionStage.page persisting)

/-- Whatever the probed servers send, the details that are stored, and the results that any
request is shown, have a title the database takes and no header that carries credentials. -/
theorem stored_details_safe (run : SystemRun settings maxAttempts .init trace s)
    (probed : ∀ p ∈ trace, ByProbe text p.2) :
    (∀ detail ∈ s.details.rows, SafeContent text detail.pageTitle detail.responseHeaders) ∧
      ∀ codec jobId limit cursor response,
        getJob settings codec s.service.db jobId limit cursor = .ok response →
        ∀ shown ∈ response.results, ∀ data, shown.result = some data → ∀ title, data.pageTitle = some title →
          title ≠ "" ∧ title.toList.length ≤ 503 ∧ Storable title := by
  have safe : s.HoldsSafe text := Run.guarded (fun _ op => ByProbe text op) run holdsSafe_init
    (fun safe probed next => safe.step probed next) probed
  refine ⟨safe.details, ?_⟩
  intro codec jobId limit cursor response ok shown mem data result
  obtain ⟨-, -, results⟩ := getJob_shown ok
  obtain ⟨t, -, -, rfl⟩ := results shown mem
  unfold taskResult at result
  obtain ⟨-, result⟩ := Option.ite_none_right_eq_some.mp result
  obtain ⟨detail, found, rfl⟩ := Option.map_eq_some_iff.mp result
  exact (safe.details detail (Table.get_eq_some_iff.mp found).1).title

/-- A server with a title and a cookie. -/
def homeNetwork : Network :=
  ⟨fun _ => .ok ⟨200, [("Set-Cookie", "s"), ("Server", "x")], [Utf8.bytes homePage.html]⟩, fun _ => 12, 0⟩

def homeOps : List (SystemOp Nat Nat) :=
  [.service (.createJob oneTaskSubmission), .service (.claimTasks 1 120 none 0)] ++
    [.start 1, .judge, .acquireLock, .judge,
      .probed exampleDns (probe asciiText 100 homeNetwork "93.184.216.34").result, .readVersion,
      .stampDetail, .commit].map worker0

theorem stored_details_safe_home :
    ∃ s : SystemState Nat Nat, exec (systemNext .defaults 3) .init homeOps = some s ∧ s.details.rows ≠ [] ∧
      ∀ detail ∈ s.details.rows, SafeContent asciiText detail.pageTitle detail.responseHeaders := by
  have enabled : (exec (systemNext .defaults 3) (SystemState.init : SystemState Nat Nat) homeOps).map
      (fun s => s.details.rows.isEmpty) = some false := by decide +kernel
  obtain ⟨s, reached, rows⟩ := Option.map_eq_some_iff.mp enabled
  have probed : ∀ p ∈ steps (systemNext .defaults 3) (SystemState.init : SystemState Nat Nat) homeOps,
      ByProbe asciiText p.2 := by
    refine steps_all (fun _ op => ByProbe asciiText op) fun op mem _ worker dns http named => ?_
    rw [named] at mem
    simp [homeOps, worker0] at mem
    exact ⟨100, homeNetwork, "93.184.216.34", mem.2.2⟩
  refine ⟨s, reached, ?_, (stored_details_safe (exec_run reached) probed).1⟩
  intro none_left
  rw [none_left] at rows
  cases rows

end DomainProcessing
