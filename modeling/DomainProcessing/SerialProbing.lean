import DomainProcessing.DoubleCheck

namespace DomainProcessing

open ExpiringLock Runs

namespace Attempt

variable (a : Attempt)

/-- The steps between the double check and the release. -/
def workSteps : List WorkerStep :=
  [.startDns, .dnsAnswered a.dns a.validateIps] ++
    if a.dns.isSuccess && allows a.validateIps then
      match a.probe with
      | .error _ => [.startHttp, .raise]
      | .ok http =>
        [.startHttp, .httpAnswered http] ++
          if http.isSuccess then
            match a.persisted with
            | .error _ => [.prepareDetail, .raise]
            | .ok () => [.prepareDetail, .commit]
          else []
    else []

/-- The steps of an attempt that gets the lock. -/
def workerSteps : List WorkerStep :=
  [.readDetail, .judge] ++ if a.freshBefore then [] else
    [.acquire .answered, .readDetail, .judge] ++ a.workSteps ++ [.release .answered]

end Attempt

section Worker

variable {τ : Type*} [DecidableEq τ]

/-- One execution of `process_task` by itself. -/
def executionNext (freshnessSeconds : Nat) (domainId : DomainId) (now : Instant) (token : τ)
    (s : DomainCell τ × Stage) (step : WorkerStep) : Option (DomainCell τ × Stage) :=
  workerNext freshnessSeconds domainId now token s.1 s.2 step

variable {freshnessSeconds : Nat} {domainId : DomainId} {now : Instant} {token : τ}
variable {cell cell' : DomainCell τ} {stage stage' : Stage} {steps : List WorkerStep}

/-- An execution that nobody interrupts, inside the system. -/
theorem exec_worker {ω : Type*} [DecidableEq ω] {uuid4 : ω → τ} {s : ProbingState ω τ} {w : ω}
    (h : exec (executionNext freshnessSeconds domainId s.now (uuid4 w)) (s.cell, s.stage w) steps =
      some (cell', stage')) :
    exec (probingNext freshnessSeconds domainId uuid4) s (steps.map (ProbingStep.worker w)) =
      some { s with cell := cell', stage := Function.update s.stage w stage' } := by
  induction steps generalizing s with
  | nil =>
    cases Option.some.inj h
    have same : Function.update s.stage w (s.stage w) = s.stage := Function.update_eq_self ..
    rw [same]
    rfl
  | cons step rest ih =>
    obtain ⟨⟨cell, stage⟩, hm, hr⟩ := Option.bind_eq_some_iff.mp h
    have next : probingNext freshnessSeconds domainId uuid4 s (.worker w step) =
        some { s with cell := cell, stage := Function.update s.stage w stage } :=
      Option.map_eq_some_iff.mpr ⟨(cell, stage), hm, rfl⟩
    rw [List.map_cons, exec_cons next]
    have later : exec (executionNext freshnessSeconds domainId s.now (uuid4 w))
        (cell, Function.update s.stage w stage w) rest = some (cell', stage') := by
      rw [Function.update_self]
      exact hr
    rw [ih (s := { s with cell := cell, stage := Function.update s.stage w stage }) later]
    simp only [Function.update_idem]

section Work

variable (freshnessSeconds domainId now token cell)

/-- The write phase, once the probe has succeeded. -/
theorem exec_persist (dns : DnsResult) (http : HttpResult) :
    ∃ row, exec (executionNext freshnessSeconds domainId now token) (cell, .httpSucceeded dns http)
      [.prepareDetail, .commit] = some ({ cell with detail := row }, .releasing) := by
  have prepare : executionNext freshnessSeconds domainId now token (cell, .httpSucceeded dns http)
      .prepareDetail =
        some (cell, .persisting (observation domainId dns http now cell.detail) cell.detail) := rfl
  rw [exec_cons prepare]
  cases hrow : persistDomainDetail (observation domainId dns http now cell.detail) cell.detail
      cell.detail with
  | none =>
    refine ⟨cell.detail, exec_cons ?_⟩
    simp only [executionNext, workerNext, hrow]
  | some row =>
    refine ⟨some row, exec_cons ?_⟩
    simp only [executionNext, workerNext, hrow]

theorem exec_workSteps (a : Attempt) :
    ∃ row, exec (executionNext freshnessSeconds domainId now token) (cell, .stillStale) a.workSteps =
        some ({ cell with detail := row }, .releasing) ∧
      (row ≠ cell.detail → a.probeDomain = ⟨.complete a.now, false⟩) := by
  let next := executionNext freshnessSeconds domainId now token
  have started : next (cell, .stillStale) .startDns = some (cell, .dnsStarted) := rfl
  by_cases hdns : (a.dns.isSuccess && allows a.validateIps) = true
  · have validated : next (cell, .dnsStarted) (.dnsAnswered a.dns a.validateIps) =
        some (cell, .ipValidated a.dns) := by
      simp only [next, executionNext, workerNext, if_pos hdns]
    have asked : next (cell, .ipValidated a.dns) .startHttp = some (cell, .httpStarted a.dns) := rfl
    have before : ∀ rest, exec next (cell, .stillStale)
        ([.startDns, .dnsAnswered a.dns a.validateIps, .startHttp] ++ rest) =
          exec next (cell, .httpStarted a.dns) rest := fun rest =>
      (exec_cons started).trans ((exec_cons validated).trans (exec_cons asked))
    cases hprobe : a.probe with
    | error e =>
      refine ⟨cell.detail, ?_, fun h => absurd rfl h⟩
      simp only [Attempt.workSteps, if_pos hdns, hprobe]
      exact before [.raise]
    | ok http =>
      by_cases hhttp : http.isSuccess = true
      · have answered : next (cell, .httpStarted a.dns) (.httpAnswered http) =
            some (cell, .httpSucceeded a.dns http) := by
          simp only [next, executionNext, workerNext, if_pos hhttp]
        cases hpersist : a.persisted with
        | error e =>
          refine ⟨cell.detail, ?_, fun h => absurd rfl h⟩
          simp only [Attempt.workSteps, if_pos hdns, hprobe, if_pos hhttp, hpersist]
          exact (before [.httpAnswered http, .prepareDetail, .raise]).trans (exec_cons answered)
        | ok done =>
          obtain ⟨row, hrow⟩ := exec_persist freshnessSeconds domainId now token cell a.dns http
          refine ⟨row, ?_, fun _ => ?_⟩
          · simp only [Attempt.workSteps, if_pos hdns, hprobe, if_pos hhttp, hpersist]
            exact (before [.httpAnswered http, .prepareDetail, .commit]).trans
              ((exec_cons answered).trans hrow)
          · obtain ⟨success, allowed⟩ := Bool.and_eq_true_iff.mp hdns
            rw [Attempt.probeDomain_of_allows success allowed]
            simp only [Attempt.probeServer, hprobe, if_pos hhttp, hpersist]
      · refine ⟨cell.detail, ?_, fun h => absurd rfl h⟩
        simp only [Attempt.workSteps, if_pos hdns, hprobe, if_neg hhttp]
        refine (before [.httpAnswered http]).trans (exec_cons ?_)
        simp only [next, executionNext, workerNext, if_neg hhttp]
  · refine ⟨cell.detail, ?_, fun h => absurd rfl h⟩
    simp only [Attempt.workSteps, if_neg hdns]
    refine (exec_cons started).trans (exec_cons ?_)
    simp only [next, executionNext, workerNext, if_neg hdns]

end Work

/-- Alone on its domain, with the lock free, an attempt leaves the lock free, and
changes the row only when it completes its task. -/
theorem exec_workerSteps (domainId : DomainId) (token : τ) {a : Attempt} (free : cell.lock = none)
    (before : a.freshBefore = checkFreshness freshnessSeconds now cell.detail)
    (after : a.freshAfter = a.freshBefore) (found : a.domainFound = true)
    (acquired : a.lock = .acquired) :
    ∃ row, exec (executionNext freshnessSeconds domainId now token) (cell, .started) a.workerSteps =
        some ({ cell with detail := row }, .finished) ∧
      (row ≠ cell.detail → a.processTask = ⟨.complete a.now, false⟩) := by
  let next := executionNext freshnessSeconds domainId now token
  have read : next (cell, .started) .readDetail = some (cell, .read cell.detail) := rfl
  by_cases fresh : a.freshBefore = true
  · have hfresh : checkFreshness freshnessSeconds now cell.detail = true := before.symm.trans fresh
    have judged : next (cell, .read cell.detail) .judge = some (cell, .finished) := by
      simp only [next, executionNext, workerNext, if_pos hfresh]
    refine ⟨cell.detail, ?_, fun h => absurd rfl h⟩
    simp only [Attempt.workerSteps, if_pos fresh]
    exact (exec_cons read).trans (exec_cons judged)
  · have stale : ¬checkFreshness freshnessSeconds now cell.detail = true := by
      rw [← before]
      exact fresh
    have judged : next (cell, .read cell.detail) .judge = some (cell, .needsProcessing) := by
      simp only [next, executionNext, workerNext, if_neg stale]
    let held : DomainCell τ := { cell with lock := some ⟨token, now + seconds lockTtlSeconds⟩ }
    have locked : next (cell, .needsProcessing) (.acquire .answered) = some (held, .lockAcquired) := by
      simp only [next, executionNext, workerNext, DomainCell.acquire, free, setNx, held]
    have reread : next (held, .lockAcquired) .readDetail = some (held, .reread cell.detail) := rfl
    have checked : next (held, .reread cell.detail) .judge = some (held, .stillStale) := by
      simp only [next, executionNext, workerNext, if_neg stale]
    obtain ⟨row, hwork, completes⟩ := exec_workSteps freshnessSeconds domainId now token held a
    have released : next ({ held with detail := row }, .releasing) (.release .answered) =
        some ({ cell with detail := row }, .finished) := by
      have owned : compareAndDelete now token (some ⟨token, now + seconds lockTtlSeconds⟩) = none := by
        have alive : now < now + seconds lockTtlSeconds := by
          simp [seconds, lockTtlSeconds]
        simp [compareAndDelete, alive]
      simp only [next, executionNext, workerNext, DomainCell.release, held, owned, free]
    refine ⟨row, ?_, fun h => ?_⟩
    · simp only [Attempt.workerSteps, if_neg fresh]
      exact (exec_cons read).trans ((exec_cons judged).trans ((exec_cons locked).trans
        ((exec_cons reread).trans ((exec_cons checked).trans
          ((exec_append hwork).trans (exec_cons released))))))
    · have works : a.processTask = a.probeDomain := by
        have again : ¬a.freshAfter = true := by
          rw [after]
          exact fresh
        simp only [Attempt.processTask, if_pos found, if_neg fresh, acquired, if_neg again]
      rw [works]
      exact completes h

/-- The same inside the system: `process_task` as one function and step by step
agree on what becomes of the lock and of the row. -/
theorem serial_processTask {ω : Type*} [DecidableEq ω] {uuid4 : ω → τ} {s : ProbingState ω τ} {w : ω}
    {a : Attempt} (start : s.stage w = .started) (free : s.cell.lock = none)
    (before : a.freshBefore = checkFreshness freshnessSeconds s.now s.cell.detail)
    (after : a.freshAfter = a.freshBefore) (found : a.domainFound = true)
    (acquired : a.lock = .acquired) :
    ∃ t, exec (probingNext freshnessSeconds domainId uuid4) s
        (a.workerSteps.map (ProbingStep.worker w)) = some t ∧
      t.stage w = .finished ∧ t.cell.lock = none ∧
      (t.cell.detail ≠ s.cell.detail → a.processTask = ⟨.complete a.now, false⟩) := by
  obtain ⟨row, hexec, completes⟩ :=
    exec_workerSteps domainId (uuid4 w) free before after found acquired
  rw [← start] at hexec
  exact ⟨_, exec_worker hexec, Function.update_self .., free, completes⟩

end Worker

end DomainProcessing
