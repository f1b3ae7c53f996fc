import DomainProcessing.JobRetrieval
import DomainProcessing.StaleWrites
import DomainProcessing.TaskBudget
import DomainProcessing.TaskExecutions

namespace DomainProcessing

open Tables Runs

/-- The task an execution is working on. -/
def ExecutionStage.task : ExecutionStage → Option Task
  | .idle => none
  | .read task _ | .needsProcessing task | .reread task _ | .probing task | .planned task _ _ _
  | .versionRead task _ _ _ _ | .persisting task _ _ | .fresh task => some task

/-- The freshness check of the execution has read a detail. -/
def ExecutionStage.foundDetail : ExecutionStage → Bool
  | .read _ found | .reread _ found => found.isSome
  | .fresh _ => true
  | _ => false

variable {ω ι : Type*}

/-- The task that a step of `process_task` sets to `COMPLETED`. -/
def completedTask (s : SystemState ω ι) : SystemOp ω ι → Option Task
  | .work worker .commit =>
    match s.stage worker with
    | .persisting task detail existing => (persistDetail detail existing s.details).map fun _ => task
    | _ => none
  | .work worker .completeFresh =>
    match s.stage worker with
    | .fresh task => some task
    | _ => none
  | _ => none

/-- The table has the row of the task that a worker holds a copy of. -/
def KnownTask (s : SystemState ω ι) (task : Task) : Prop :=
  ∃ row ∈ s.tasks, row.id = task.id ∧ row.domainId = task.domainId ∧ row.type = task.type ∧
    row.createdAt = task.createdAt

/-- A step of an execution on the task, after which the domain has a detail. -/
structure Observes (taskId : TaskId) (domainId : DomainId) (r : SystemState ω ι)
    (op : SystemOp ω ι) (u : SystemState ω ι) : Prop where
  execution : ∃ worker step task, op = .work worker step ∧ task.id = taskId ∧
    ((r.stage worker).task = some task ∨ (u.stage worker).task = some task)
  present : (u.details.get domainId).isSome

variable {settings : AppSettings} {maxAttempts : Nat} {s s' u : SystemState ω ι}
  {op : SystemOp ω ι} {trace rest : List (SystemState ω ι × SystemOp ω ι)} {t task : Task}
  {domainId : DomainId}

/-- A new stage is about the task of the stage before, or about a row just read. -/
theorem StageStep.task_origin {stage stage' : ExecutionStage} {step : ExecutionStep}
    (h : StageStep settings s stage step stage') (ht : stage'.task = some task) :
    stage.task = some task ∨ task ∈ s.tasks := by
  cases h with
  | start found =>
    cases Option.some.inj ht
    exact Or.inr (Table.get_eq_some_iff.mp found).1
  | ended => cases ht
  | reuse | process | acquireLock | reuseAfterLock | probe | probed | readVersion | stampDetail =>
    exact Or.inl ht

/-- A freshness check that finds a row has read it in the step before, or the
execution knew it already. -/
theorem StageStep.foundDetail_origin {stage stage' : ExecutionStage} {step : ExecutionStep}
    (h : StageStep settings s stage step stage') (ht : stage'.task = some task)
    (found : stage'.foundDetail = true) :
    (stage.task = some task ∧ stage.foundDetail = true) ∨
      (s.details.get task.domainId).isSome ∧ step ≠ .commit := by
  cases h with
  | start =>
    cases Option.some.inj ht
    exact Or.inr ⟨found, by simp⟩
  | acquireLock =>
    cases Option.some.inj ht
    exact Or.inr ⟨found, by simp⟩
  | @reuse _ row fresh =>
    refine Or.inl ⟨ht, ?_⟩
    cases row with
    | none => cases fresh
    | some => rfl
  | @reuseAfterLock _ row fresh =>
    refine Or.inl ⟨ht, ?_⟩
    cases row with
    | none => cases fresh
    | some => rfl
  | process | probe | probed | readVersion | stampDetail | ended => cases found

variable [DecidableEq ω] [DecidableEq ι]

theorem mem_tasks_after {service service' : ServiceState} {o : ServiceOp}
    (h : serviceNext maxAttempts service o = some service') (ht : t ∈ service.tasks) :
    ∃ row ∈ service'.tasks, row.id = t.id ∧ row.domainId = t.domainId ∧ row.type = t.type ∧
      row.createdAt = t.createdAt := by
  have same := @rowAfter_subject maxAttempts service.tasks o t
  exact ⟨_, serviceNext_row h ht, rowAfter_id _ _ _, same⟩

theorem systemNext_row (h : systemNext settings maxAttempts s op = some s') (ht : t ∈ s.tasks) :
    KnownTask s' t := by
  have change := (systemNext_effect h).service
  generalize hs : s'.service = service at change
  have shown : s'.tasks = service.tasks := congrArg ServiceState.tasks hs
  unfold KnownTask
  rw [shown]
  cases change with
  | same => exact ⟨t, ht, rfl, rfl, rfl, rfl⟩
  | external _ hn => exact mem_tasks_after hn ht
  | reused _ hn => exact mem_tasks_after hn ht
  | observed _ _ hn => exact mem_tasks_after hn ht
  | scheduled _ hn => exact mem_tasks_after hn ht

theorem knownTask_step (h : systemNext settings maxAttempts s op = some s')
    (known : KnownTask s task) : KnownTask s' task := by
  obtain ⟨row, hr, hid, hd, ht, hc⟩ := known
  obtain ⟨row', hr', hid', hd', ht', hc'⟩ := systemNext_row h hr
  exact ⟨row', hr', hid'.trans hid, hd'.trans hd, ht'.trans ht, hc'.trans hc⟩

omit [DecidableEq ω] [DecidableEq ι] in
/-- The row of a known task bears what the worker's copy bears. -/
theorem knownTask_row (known : KnownTask s task) (ht : t ∈ s.tasks) (hid : task.id = t.id) :
    task.domainId = t.domainId ∧ task.type = t.type ∧ task.createdAt = t.createdAt := by
  obtain ⟨row, hr, hrid, hd, hty, hc⟩ := known
  have same : row = t := Table.eq_of_key hr ht (hrid.trans hid)
  subst same
  exact ⟨hd.symm, hty.symm, hc.symm⟩

/-- A task becomes completed only by the completing write. -/
theorem completed_before {service service' : ServiceState} {o : ServiceOp}
    (h : serviceNext maxAttempts service o = some service') (ht : t ∈ service'.tasks)
    (completed : t.status = .completed) :
    (∃ old ∈ service.tasks, old.id = t.id ∧ old.domainId = t.domainId ∧ old.status = .completed) ∨
      ∃ now, o = .writeCompleteTask t.id now := by
  obtain ⟨new, newJobs, effect⟩ := serviceNext_effect h
  rw [effect.tasks] at ht
  rcases List.mem_append.mp ht with ht | ht
  · obtain ⟨old, hold, rfl⟩ := List.mem_map.mp ht
    rw [rowAfter_id, (rowAfter_subject _ _ _).1]
    rcases rowAfter_completed completed with hc | written
    · exact Or.inl ⟨old, hold, rfl, rfl, hc⟩
    · exact Or.inr written
  · obtain ⟨_, _, hs | ⟨hs, _⟩⟩ := effect.added.fresh ht <;> simp [hs] at completed

/-- A task becomes completed in the step that completes an execution on it. -/
theorem newly_completed (h : systemNext settings maxAttempts s op = some s') (ht : t ∈ s'.tasks)
    (completed : t.status = .completed) :
    (∃ old ∈ s.tasks, old.id = t.id ∧ old.domainId = t.domainId ∧ old.status = .completed) ∨
      ∃ task, completedTask s op = some task ∧ task.id = t.id := by
  have change := (systemNext_effect h).service
  generalize hs : s'.service = service at change
  have rows : t ∈ service.tasks := hs ▸ ht
  cases change with
  | same => exact Or.inl ⟨t, rows, rfl, rfl, completed⟩
  | external external hn =>
    rcases completed_before hn rows completed with old | ⟨now, rfl⟩
    · exact Or.inl old
    · cases external
  | @reused worker task _ hstage hn =>
    rcases completed_before hn rows completed with old | ⟨now, written⟩
    · exact Or.inl old
    · injection written with hid _
      exact Or.inr ⟨task, by simp only [completedTask, hstage], hid⟩
  | @observed worker task detail existing details _ hstage hp hn =>
    rcases completed_before hn rows completed with old | ⟨now, written⟩
    · exact Or.inl old
    · injection written with hid _
      exact Or.inr ⟨task, by simp only [completedTask, hstage, hp, Option.map_some], hid⟩
  | scheduled _ hn =>
    rcases completed_before hn rows completed with old | ⟨now, written⟩
    · exact Or.inl old
    · cases written

/-- After a completion the domain has the observation committed with it, or the
row that was there. -/
theorem completion_cases (h : systemNext settings maxAttempts s op = some s')
    (hc : completedTask s op = some task) :
    (∃ worker detail existing v, op = .work worker .commit ∧
      s.stage worker = .persisting task detail existing ∧
      s'.details.get detail.domainId = some { detail with version := v }) ∨
      ∃ worker, op = .work worker .completeFresh ∧ s.stage worker = .fresh task ∧
        s'.details.get task.domainId = s.details.get task.domainId := by
  unfold completedTask at hc
  split at hc
  next worker =>
    split at hc
    next task' detail existing hstage =>
      obtain ⟨details, hp, rfl⟩ := Option.map_eq_some_iff.mp hc
      obtain ⟨stage, _, h⟩ := Option.bind_eq_some_iff.mp h
      obtain ⟨service, hs, rfl⟩ := Option.map_eq_some_iff.mp h
      simp only [hstage, commits, hp] at hs
      obtain ⟨v, stored⟩ := (persistDetail_persisted hp).stored
      refine Or.inl ⟨worker, detail, existing, v, rfl, hstage, ?_⟩
      exact (serviceNext_details_kept hs (by simp) detail.domainId).trans stored
    next => cases hc
  next worker =>
    split at hc
    next task' hstage =>
      cases Option.some.inj hc
      obtain ⟨stage, _, h⟩ := Option.bind_eq_some_iff.mp h
      obtain ⟨service, hs, rfl⟩ := Option.map_eq_some_iff.mp h
      simp only [hstage, commits] at hs
      exact Or.inr ⟨worker, rfl, hstage, serviceNext_details_kept hs (by simp) task.domainId⟩
    next => cases hc
  next => cases hc

theorem knownTask_run (run : SystemRun settings maxAttempts .init trace s) :
    ∀ worker task, (s.stage worker).task = some task → KnownTask s task := by
  refine run.invariant (P := fun s => ∀ worker task, (s.stage worker).task = some task →
    KnownTask s task) (fun worker task h => by cases h) ?_
  intro s op s' ih h worker task ht
  apply knownTask_step h
  rcases stage_step h worker with same | ⟨step, rfl, move⟩
  · rw [same] at ht
    exact ih worker task ht
  · rcases move.task_origin ht with before | hm
    · exact ih worker task before
    · exact ⟨task, hm, rfl, rfl, rfl, rfl⟩

theorem completedTask_known (run : SystemRun settings maxAttempts .init trace s)
    (h : systemNext settings maxAttempts s op = some s') (hc : completedTask s op = some task) :
    KnownTask s task := by
  rcases completion_cases h hc with ⟨worker, _, _, _, _, hstage, _⟩ | ⟨worker, _, hstage, _⟩
  · exact knownTask_run run worker task (by rw [hstage]; rfl)
  · exact knownTask_run run worker task (by rw [hstage]; rfl)

/-- Some step of the run is one of an execution on the task and left the domain
with a detail. -/
def Observed (settings : AppSettings) (maxAttempts : Nat) (trace : List (SystemState ω ι × SystemOp ω ι))
    (s : SystemState ω ι) (taskId : TaskId) (domainId : DomainId) : Prop :=
  ∃ later r op earlier u, trace = later ++ (r, op) :: earlier ∧
    systemNext settings maxAttempts r op = some u ∧ SystemRun settings maxAttempts u later s ∧
    Observes taskId domainId r op u

theorem Observed.now {taskId : TaskId} (h : systemNext settings maxAttempts s op = some s')
    (observes : Observes taskId domainId s op s') :
    Observed settings maxAttempts ((s, op) :: trace) s' taskId domainId :=
  ⟨[], s, op, trace, s', rfl, h, Run.start, observes⟩

theorem Observed.later {taskId : TaskId} (h : systemNext settings maxAttempts s op = some s')
    (observed : Observed settings maxAttempts trace s taskId domainId) :
    Observed settings maxAttempts ((s, op) :: trace) s' taskId domainId := by
  obtain ⟨later, r, op', earlier, u, rfl, hs, rest, observes⟩ := observed
  exact ⟨(s, op) :: later, r, op', earlier, u, rfl, hs, rest.step h, observes⟩

/-- The runs of executions that have found a detail, and the completed tasks. -/
structure ResultInv (settings : AppSettings) (maxAttempts : Nat)
    (trace : List (SystemState ω ι × SystemOp ω ι)) (s : SystemState ω ι) : Prop where
  found : ∀ worker task, (s.stage worker).task = some task → (s.stage worker).foundDetail = true →
    Observed settings maxAttempts trace s task.id task.domainId
  completed : ∀ t ∈ s.tasks, t.status = .completed →
    Observed settings maxAttempts trace s t.id t.domainId

theorem found_step (h : systemNext settings maxAttempts s op = some s')
    (inv : ResultInv settings maxAttempts trace s) {worker : ω}
    (ht : (s'.stage worker).task = some task) (found : (s'.stage worker).foundDetail = true) :
    Observed settings maxAttempts ((s, op) :: trace) s' task.id task.domainId := by
  rcases stage_step h worker with same | ⟨step, rfl, move⟩
  · rw [same] at ht found
    exact (inv.found worker task ht found).later h
  · rcases move.foundDetail_origin ht found with ⟨before, known⟩ | ⟨read, other⟩
    · exact (inv.found worker task before known).later h
    · refine .now h ⟨⟨worker, step, task, rfl, rfl, Or.inr ht⟩, ?_⟩
      rcases systemNext_detail h task.domainId with same | ⟨_, he, _⟩ | ⟨_, _, _, _, _, he, _⟩
      · rw [same]
        exact read
      · cases he
      · cases he
        exact absurd rfl other

theorem persisting_domain (run : SystemRun settings maxAttempts .init trace s) :
    ∀ worker task detail existing, s.stage worker = .persisting task detail existing →
      detail.domainId = task.domainId := by
  refine run.invariant (P := fun s => ∀ worker task detail existing,
    s.stage worker = .persisting task detail existing → detail.domainId = task.domainId)
    (fun worker task detail existing h => by cases h) ?_
  intro s op s' ih h worker task detail existing hstage
  rcases stage_step h worker with same | ⟨step, rfl, move⟩
  · rw [same] at hstage
    exact ih worker task detail existing hstage
  · rw [hstage] at move
    generalize s.stage worker = old at move
    cases move
    rfl

theorem completed_step (run : SystemRun settings maxAttempts .init trace s)
    (h : systemNext settings maxAttempts s op = some s')
    (inv : ResultInv settings maxAttempts trace s) (ht : t ∈ s'.tasks)
    (completed : t.status = .completed) :
    Observed settings maxAttempts ((s, op) :: trace) s' t.id t.domainId := by
  rcases newly_completed h ht completed with ⟨old, hold, hid, hd, hc⟩ | ⟨task, hc, hid⟩
  · rw [← hid, ← hd]
    exact (inv.completed old hold hc).later h
  · -- the row that is completed is the one the worker has a copy of
    have same := (knownTask_row (knownTask_step h (completedTask_known run h hc)) ht hid).1
    rw [← same, ← hid]
    rcases completion_cases h hc with
      ⟨worker, detail, existing, v, rfl, hstage, stored⟩ | ⟨worker, rfl, hstage, _⟩
    · have working : (s.stage worker).task = some task := by rw [hstage]; rfl
      refine .now h ⟨⟨worker, .commit, task, rfl, rfl, Or.inl working⟩, ?_⟩
      rw [← persisting_domain run worker task detail existing hstage, stored]
      rfl
    · have working : (s.stage worker).task = some task := by rw [hstage]; rfl
      have knows : (s.stage worker).foundDetail = true := by rw [hstage]; rfl
      exact (inv.found worker task working knows).later h

theorem resultInv_run (run : SystemRun settings maxAttempts .init trace s) :
    ResultInv settings maxAttempts trace s := by
  induction run with
  | start =>
    refine ⟨fun worker task h => (by cases h), ?_⟩
    simp [SystemState.init, SystemState.tasks, ServiceState.init, ServiceState.tasks, Db.empty,
      Table.empty]
  | step run h ih =>
    exact ⟨fun _ _ ht found => found_step h ih ht found,
      fun _ ht completed => completed_step run h ih ht completed⟩

/-- A submission has deleted the domain's detail, and the domain has had none
since. -/
def ClearedIn (domainId : DomainId) (trace : List (SystemState ω ι × SystemOp ω ι))
    (s : SystemState ω ι) : Prop :=
  s.details.get domainId = none ∧ ∃ after q sub before,
    trace = after ++ (q, .service (.createJob sub)) :: before ∧ (q.details.get domainId).isSome ∧
    (createJob sub q.service.db).1.details.get domainId = none ∧
    ∀ p ∈ after, p.1.details.get domainId = none

theorem present_or_cleared (run : SystemRun settings maxAttempts s trace s')
    (present : (s.details.get domainId).isSome) :
    (s'.details.get domainId).isSome ∨ ClearedIn domainId trace s' := by
  induction run with
  | start => exact Or.inl present
  | @step trace t op u _ h ih =>
    rcases systemNext_detail h domainId with
      same | ⟨sub, rfl, cleared, gone⟩ | ⟨_, _, _, _, v, _, _, _, stored⟩
    · rcases ih with here | ⟨absent, after, q, sub, before, rfl, hq, cleared, since⟩
      · exact Or.inl (same ▸ here)
      · exact Or.inr ⟨same.trans absent, (t, op) :: after, q, sub, before, rfl, hq, cleared,
          List.forall_mem_cons.mpr ⟨absent, since⟩⟩
    · rcases ih with here | ⟨absent, after, q, sub', before, rfl, hq, cleared', since⟩
      · exact Or.inr ⟨gone, [], t, sub, trace, rfl, here, cleared, by simp⟩
      · exact Or.inr ⟨gone, _ :: after, q, sub', before, rfl, hq, cleared',
          List.forall_mem_cons.mpr ⟨absent, since⟩⟩
    · exact Or.inl (stored ▸ rfl)

/-- A completed task is shown with a result exactly when its domain has a
detail. There was one at some step of an execution on the task, and only a
later submission that reactivated the domain can have deleted it. -/
theorem completed_result_or_cleared (run : SystemRun settings maxAttempts .init trace s)
    (ht : t ∈ s.tasks) (completed : t.status = .completed) :
    ((taskResult s.service.db t).result.isSome ↔ (s.details.get t.domainId).isSome) ∧
      ∃ later r op earlier u, trace = later ++ (r, op) :: earlier ∧
        systemNext settings maxAttempts r op = some u ∧ Observes t.id t.domainId r op u ∧
        ((s.details.get t.domainId).isSome ∨ ClearedIn t.domainId later s) := by
  obtain ⟨later, r, op, earlier, u, parts, h, rest, observes⟩ :=
    (resultInv_run run).completed t ht completed
  refine ⟨?_, later, r, op, earlier, u, parts, h, observes, present_or_cleared rest observes.present⟩
  rw [taskResult_result_isSome]
  exact and_iff_right completed

def exampleDns : DnsResult := ⟨["93.184.216.34"], [], none, none⟩

def exampleHttp : HttpResult := ⟨200, [], 12, none, none⟩

def worker0 (step : ExecutionStep) : SystemOp Nat Nat := .work 0 step

/-- A task is processed and completed. -/
def completingOps : List (SystemOp Nat Nat) :=
  [.service (.createJob oneTaskSubmission), .service (.claimTasks 1 120 none 0)] ++
    [.start 1, .judge, .acquireLock, .judge, .probed exampleDns exampleHttp, .readVersion,
      .stampDetail, .commit].map worker0

theorem completed_result_or_cleared_shown :
    ∃ (s : SystemState Nat Nat) (t : Task),
      exec (systemNext .defaults 3) .init completingOps = some s ∧ t ∈ s.tasks ∧
      t.status = .completed ∧
      ((taskResult s.service.db t).result.isSome ↔ (s.details.get t.domainId).isSome) := by
  have enabled : (exec (systemNext .defaults 3) (SystemState.init : SystemState Nat Nat)
      completingOps).map (fun s => s.tasks.any fun t => t.status = .completed) = some true := by
    decide +kernel
  obtain ⟨s, hs, found⟩ := Option.map_eq_some_iff.mp enabled
  obtain ⟨t, ht, completed⟩ := List.any_eq_true.mp found
  have completed : t.status = .completed := by simpa using completed
  exact ⟨s, t, hs, ht, completed, (completed_result_or_cleared (exec_run hs) ht completed).1⟩

/-- The task of the second job is claimed, and its lookups find no address. -/
def unresolvedOps : List (SystemOp Nat Nat) :=
  [.service (.claimTasks 1 120 none 0)] ++
    [.start 20, .judge, .acquireLock, .judge, .abandon].map worker0 ++
    [.service (.writeRescheduleTask 20 "DNS error: None" 0 (.unjittered 0))]

/-- Two days later another job submits the domain, its task runs out of attempts,
and a third job reactivates the domain. -/
def clearingOps : List (SystemOp Nat Nat) :=
  [.elapse 172800000000, .service (.createJob (laterSubmission 2))] ++ unresolvedOps ++ unresolvedOps ++
    unresolvedOps ++ [.service (.createJob (laterSubmission 3))]

theorem completed_result_or_cleared_gone :
    ∃ s : SystemState Nat Nat,
      exec (systemNext .defaults 3) .init (completingOps ++ clearingOps) = some s ∧
      ∃ t ∈ s.tasks, t.id = 1 ∧ t.status = .completed ∧ (taskResult s.service.db t).result = none := by
  have enabled : (exec (systemNext .defaults 3) .init (completingOps ++ clearingOps)).map
      (fun s => s.tasks.any fun t => t.id = 1 ∧ t.status = .completed ∧
        (taskResult s.service.db t).result.isNone) = some true := by
    decide +kernel
  obtain ⟨s, hs, found⟩ := Option.map_eq_some_iff.mp enabled
  obtain ⟨t, ht, shown⟩ := List.any_eq_true.mp found
  have shown : t.id = 1 ∧ t.status = .completed ∧ (taskResult s.service.db t).result.isNone := by
    simpa using shown
  exact ⟨s, hs, t, ht, shown.1, shown.2.1, Option.isNone_iff_eq_none.mp shown.2.2⟩

end DomainProcessing
