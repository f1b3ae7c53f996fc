import DomainProcessing.CompletedResults
import DomainProcessing.IngestionAccounting
import DomainProcessing.Pagination
import DomainProcessing.RefreshCompletion

namespace DomainProcessing

open Tables Runs

namespace Db

def HasDomain (db : Db) (domainId : DomainId) : Prop := ∃ d ∈ db.domains.rows, d.id = domainId

def HasJob (db : Db) (jobId : JobId) : Prop := ∃ job ∈ db.jobs.rows, job.id = jobId

/-- The `ForeignKey` constraints of the tables. -/
structure ForeignKeys (db : Db) : Prop where
  taskDomain : ∀ t ∈ db.tasks.rows, db.HasDomain t.domainId
  taskJob : ∀ t ∈ db.tasks.rows, ∀ jobId, t.jobId = some jobId → db.HasJob jobId
  detailDomain : ∀ detail ∈ db.details.rows, db.HasDomain detail.domainId
  recordJob : ∀ record ∈ db.idempotencyRecords.rows, db.HasJob record.jobId

/-- No domain is gone or has another name. -/
def KeepsNames (before after : Db) : Prop :=
  ∀ d ∈ before.domains.rows, ∃ d' ∈ after.domains.rows,
    d'.id = d.id ∧ d'.normalizedDomain = d.normalizedDomain

def KeepsJobs (before after : Db) : Prop :=
  ∀ job ∈ before.jobs.rows, ∃ job' ∈ after.jobs.rows, job'.id = job.id

variable {db before after : Db}

theorem KeepsNames.refl (db : Db) : db.KeepsNames db := fun d mem => ⟨d, mem, rfl, rfl⟩

theorem KeepsNames.trans {later : Db} (first : before.KeepsNames after) (second : after.KeepsNames later) :
    before.KeepsNames later := by
  intro d mem
  obtain ⟨d', mem', id, name⟩ := first d mem
  obtain ⟨d'', mem'', id', name'⟩ := second d' mem'
  exact ⟨d'', mem'', id'.trans id, name'.trans name⟩

theorem KeepsNames.hasDomain (h : before.KeepsNames after) {domainId : DomainId}
    (had : before.HasDomain domainId) : after.HasDomain domainId := by
  obtain ⟨d, mem, rfl⟩ := had
  obtain ⟨d', mem', id, -⟩ := h d mem
  exact ⟨d', mem', id⟩

theorem KeepsJobs.hasJob (h : before.KeepsJobs after) {jobId : JobId} (had : before.HasJob jobId) :
    after.HasJob jobId := by
  obtain ⟨job, mem, rfl⟩ := had
  exact h job mem

theorem keepsNames_of_rows {f : Domain → Domain} {created : List Domain}
    (rows : after.domains.rows = before.domains.rows.map f ++ created)
    (keep : ∀ d, (f d).id = d.id ∧ (f d).normalizedDomain = d.normalizedDomain) :
    before.KeepsNames after := by
  intro d mem
  refine ⟨f d, ?_, keep d⟩
  rw [rows]
  exact List.mem_append_left _ (List.mem_map_of_mem mem)

theorem keepsNames_deactivate (db : Db) (domainId : DomainId) (now : Instant) :
    db.KeepsNames (deactivateDomain db domainId now) := by
  refine @keepsNames_of_rows _ _ _ [] (List.append_nil _).symm fun d => ?_
  split
  · dsimp only
    split
    · exact ⟨rfl, rfl⟩
    · exact ⟨rfl, rfl⟩
  · exact ⟨rfl, rfl⟩

theorem keepsNames_persistTasks {sub : Submission} (h : persistTasks sub before = some after) :
    before.KeepsNames after := by
  obtain ⟨domains, _, _, _, created, _, _, _, rfl⟩ := persistTasks_cases h
  obtain ⟨missing, inserted, -⟩ := createMissingDomains_rows created
  have added : before.KeepsNames { before with domains := domains } := by
    refine @keepsNames_of_rows _ _ id (missing.map sub.domainRow) ?_ fun d => ⟨rfl, rfl⟩
    rw [List.map_id]
    exact inserted
  refine added.trans (@keepsNames_of_rows _ _ _ [] (List.append_nil _).symm fun d => ?_)
  split
  · exact ⟨rfl, rfl⟩
  · exact ⟨rfl, rfl⟩

theorem keepsNames_createJob (sub : Submission) (db : Db) : db.KeepsNames (createJob sub db).1 := by
  rcases createJob_committed sub db with ⟨same, _⟩ | ⟨opened, ho, hp, _⟩
  · rw [same]
    exact .refl db
  · have same := openJob_domains ho
    intro d mem
    exact keepsNames_persistTasks hp d (same ▸ mem)

end Db

section Transaction

variable {maxAttempts : Nat} {s s' : ServiceState} {op : ServiceOp}

theorem serviceNext_keepsNames (h : serviceNext maxAttempts s op = some s') : s.db.KeepsNames s'.db := by
  cases op with
  | createJob sub =>
    cases Option.some.inj h
    exact Db.keepsNames_createJob sub s.db
  | createRefreshTasks | claimTasks | recoveryCycle =>
    cases Option.some.inj h
    exact .refl s.db
  | writeCompleteTask taskId now =>
    obtain ⟨_, h⟩ := Option.ite_none_right_eq_some.mp h
    cases Option.some.inj h
    intro d mem
    exact ⟨d, by simpa [writeCompleteTask] using mem, rfl, rfl⟩
  | writeFailTask taskId error now =>
    obtain ⟨_, h⟩ := Option.ite_none_right_eq_some.mp h
    cases Option.some.inj h
    intro d mem
    exact ⟨d, by simpa [writeFailTask] using mem, rfl, rfl⟩
  | writeFailTaskWithDeactivation taskId domainId error failure now =>
    obtain ⟨_, h⟩ := Option.ite_none_right_eq_some.mp h
    cases Option.some.inj h
    have failed : ∀ f keep, s.db.KeepsNames (writeTerminal f keep s.db taskId now) := by
      intro f keep d mem
      exact ⟨d, by simpa using mem, rfl, rfl⟩
    unfold writeFailTaskWithDeactivation
    split
    · exact (failed _ _).trans (Db.keepsNames_deactivate _ domainId now)
    · exact failed _ _
  | writeRescheduleTask taskId error now draw =>
    obtain ⟨_, h⟩ := Option.ite_none_right_eq_some.mp h
    cases Option.some.inj h
    unfold writeRescheduleTask
    split
    next => exact .refl s.db
    next task _ =>
      have evaluated : ∀ tasks jobId, s.db.KeepsNames
          (checkAndUpdateJobStatus { s.db with tasks := tasks } jobId now) := by
        intro tasks jobId d mem
        exact ⟨d, by simpa using mem, rfl, rfl⟩
      dsimp only
      split
      · split
        · exact (evaluated _ _).trans (Db.keepsNames_deactivate _ task.domainId now)
        · exact evaluated _ _
      · exact .refl s.db

theorem Effect.keepsJobs {new : List Task} {newJobs : List Job}
    (effect : Effect maxAttempts s s' op new newJobs) : s.db.KeepsJobs s'.db := by
  intro job mem
  have stored := effect.jobs ▸ List.mem_append_left newJobs (List.mem_map_of_mem mem)
  exact ⟨_, stored, reevaluated_id _ _ _ job⟩

theorem serviceNext_detail_mem (h : serviceNext maxAttempts s op = some s') {detail : DomainDetail}
    (mem : detail ∈ s'.db.details.rows) : detail ∈ s.db.details.rows := by
  have found : s'.db.details.get detail.domainId = some detail := Table.get_eq_some_iff.mpr ⟨mem, rfl⟩
  rcases serviceNext_detail h detail.domainId with same | ⟨_, _, cleared⟩
  · rw [same] at found
    exact (Table.get_eq_some_iff.mp found).1
  · rw [cleared] at found
    cases found

theorem writeTerminal_records (f : Task → Task) (keep : ∀ t, (f t).id = t.id) (db : Db)
    (taskId : TaskId) (now : Instant) :
    (writeTerminal f keep db taskId now).idempotencyRecords = db.idempotencyRecords := by
  unfold writeTerminal
  split
  · rfl
  next task _ => cases task.jobId <;> rfl

theorem writeRescheduleTask_records (db : Db) (taskId : TaskId) (error : String) (now : Instant)
    (draw : RetryDraw) :
    (writeRescheduleTask maxAttempts db taskId error now draw).idempotencyRecords =
      db.idempotencyRecords := by
  have evaluated : ∀ (db : Db) jobId,
      (checkAndUpdateJobStatus db jobId now).idempotencyRecords = db.idempotencyRecords := by
    intro db jobId
    cases jobId <;> rfl
  unfold writeRescheduleTask
  split
  · rfl
  · dsimp only
    split
    · split
      · exact evaluated _ _
      · exact evaluated _ _
    · rfl

/-- The records are kept, or the one of an accepted job is added. -/
theorem serviceNext_records (h : serviceNext maxAttempts s op = some s') :
    s'.db.idempotencyRecords = s.db.idempotencyRecords ∨
      ∃ sub scope, op = .createJob sub ∧ s'.db.HasJob sub.jobUuid ∧
        s'.db.idempotencyRecords.rows = s.db.idempotencyRecords.rows ++ [sub.recordRow scope] := by
  cases op with
  | createJob sub =>
    cases Option.some.inj h
    rcases createJob_committed sub s.db with ⟨same, _⟩ | ⟨opened, ho, hp, _⟩
    · exact Or.inl (congrArg Db.idempotencyRecords same)
    · obtain ⟨sameJobs, sameRecords, -⟩ := persistTasks_spec hp
      obtain ⟨jobs, records, inserted, rfl, ⟨_, rfl⟩ | ⟨scope, _, added⟩⟩ := openJob_cases ho
      · exact Or.inl sameRecords
      · refine Or.inr ⟨sub, scope, rfl, ⟨sub.jobRow, ?_, rfl⟩, ?_⟩
        · rw [sameJobs, Table.insert_rows inserted]
          exact List.mem_append_right _ (List.mem_singleton_self _)
        · rw [sameRecords, Table.insert_rows added]
  | createRefreshTasks | claimTasks | recoveryCycle =>
    cases Option.some.inj h
    exact Or.inl rfl
  | writeCompleteTask | writeFailTask =>
    obtain ⟨_, h⟩ := Option.ite_none_right_eq_some.mp h
    cases Option.some.inj h
    simp only [writeCompleteTask, writeFailTask, writeTerminal_records, true_or]
  | writeFailTaskWithDeactivation =>
    obtain ⟨_, h⟩ := Option.ite_none_right_eq_some.mp h
    cases Option.some.inj h
    unfold writeFailTaskWithDeactivation
    dsimp only
    split
    · simp only [deactivateDomain, writeTerminal_records, true_or]
    · simp only [writeTerminal_records, true_or]
  | writeRescheduleTask =>
    obtain ⟨_, h⟩ := Option.ite_none_right_eq_some.mp h
    cases Option.some.inj h
    exact Or.inl (writeRescheduleTask_records ..)

/-- A record is an old one or that of the job that comes with it. -/
theorem serviceNext_record (h : serviceNext maxAttempts s op = some s') {record : IdempotencyRecord}
    (mem : record ∈ s'.db.idempotencyRecords.rows) :
    record ∈ s.db.idempotencyRecords.rows ∨ s'.db.HasJob record.jobId := by
  rcases serviceNext_records h with same | ⟨sub, scope, -, stored, rows⟩
  · exact Or.inl (same ▸ mem)
  · rw [rows] at mem
    rcases List.mem_append.mp mem with old | new
    · exact Or.inl old
    · cases List.mem_singleton.mp new
      exact Or.inr stored

theorem findDomain_mem {domains : List Domain} {name : String} {d : Domain}
    (h : findDomain domains name = some d) : d ∈ domains := List.mem_of_find?_eq_some h

/-- The tasks of a submission are about domains that it has found or created. -/
theorem createJob_task_domain {sub : Submission} {db : Db} {t : Task}
    (mem : t ∈ (createJob sub db).1.tasks.rows) :
    t ∈ db.tasks.rows ∨ (createJob sub db).1.HasDomain t.domainId := by
  rcases createJob_committed sub db with ⟨same, _⟩ | ⟨opened, ho, hp, _⟩
  · rw [same] at mem
    exact Or.inl mem
  · obtain ⟨domains, valid, invalid, tasks, _, hv, hi, ht, after⟩ := persistTasks_cases hp
    rw [after] at mem ⊢
    have rows : tasks.rows = db.tasks.rows ++ (valid ++ invalid) := by
      rw [Table.insert_rows ht, (openJob_spec ho).2.1]
    change t ∈ tasks.rows at mem
    rw [rows] at mem
    rcases List.mem_append.mp mem with old | new
    · exact Or.inl old
    · right
      rcases List.mem_append.mp new with among | among
      · obtain ⟨⟨d, i⟩, _, built⟩ := exists_source_of_mapM hv among
        obtain ⟨row, found, rfl⟩ := Option.map_eq_some_iff.mp built
        exact ⟨row, findDomain_mem found, rfl⟩
      · obtain ⟨⟨d, i⟩, _, built⟩ := exists_source_of_mapM hi among
        obtain ⟨row, found, rfl⟩ := Option.map_eq_some_iff.mp built
        exact ⟨row, findDomain_mem found, rfl⟩

/-- A transaction keeps the foreign keys if its refresh tasks are about stored domains. -/
theorem Db.ForeignKeys.serviceNext (keys : s.db.ForeignKeys)
    (h : serviceNext maxAttempts s op = some s')
    (refers : ∀ uuid domainIds now, op = .createRefreshTasks uuid domainIds now →
      ∀ domainId ∈ domainIds, s.db.HasDomain domainId) : s'.db.ForeignKeys := by
  obtain ⟨new, newJobs, effect⟩ := serviceNext_effect h
  have names := serviceNext_keepsNames h
  have jobs := effect.keepsJobs
  have added : ∀ t ∈ new, s'.db.HasDomain t.domainId ∧
      ∀ jobId, t.jobId = some jobId → s'.db.HasJob jobId := by
    intro t mem
    have stored : t ∈ s'.db.tasks.rows := by
      have shown : t ∈ s'.tasks := by
        rw [effect.tasks]
        exact List.mem_append_right _ mem
      exact shown
    have unused := effect.unused t mem
    have unknown : t ∉ s.db.tasks.rows := fun old =>
      Table.get_eq_none_iff.mp unused (List.mem_map_of_mem old)
    cases effect.added with
    | nothing => cases mem
    | @job sub _ tasks =>
      cases Option.some.inj h
      refine ⟨(createJob_task_domain stored).resolve_left unknown, fun jobId named => ?_⟩
      rw [tasks.job t mem] at named
      cases Option.some.inj named
      refine ⟨sub.jobRow, ?_, rfl⟩
      rw [effect.jobs]
      exact List.mem_append_right _ (List.mem_singleton_self _)
    | @refresh uuid domainIds now _ shape =>
      obtain ⟨id, domainId, rfl⟩ := shape t mem
      refine ⟨names.hasDomain (refers uuid domainIds now rfl _ ?_), fun jobId named => by cases named⟩
      cases Option.some.inj h
      cases created : createRefreshTasks uuid domainIds now s.db.tasks with
      | none =>
        simp only [created, Option.getD_none] at stored
        exact absurd stored unknown
      | some after =>
        obtain ⟨tasks, built, inserted⟩ := Option.bind_eq_some_iff.mp created
        simp only [created, Option.getD_some, Table.insert_rows inserted] at stored
        exact (refreshTasksFor_due built ((List.mem_append.mp stored).resolve_left unknown)).2.1
  have rows : s'.db.tasks.rows = s.tasks.map (rowAfter maxAttempts s.tasks op) ++ new := effect.tasks
  constructor
  · intro t mem
    rw [rows] at mem
    rcases List.mem_append.mp mem with old | fresh
    · obtain ⟨row, held, rfl⟩ := List.mem_map.mp old
      rw [(rowAfter_subject s.tasks op row).1]
      exact names.hasDomain (keys.taskDomain row held)
    · exact (added t fresh).1
  · intro t mem
    rw [rows] at mem
    rcases List.mem_append.mp mem with old | fresh
    · obtain ⟨row, held, rfl⟩ := List.mem_map.mp old
      rw [rowAfter_jobId]
      exact fun jobId named => jobs.hasJob (keys.taskJob row held jobId named)
    · exact (added t fresh).2
  · intro detail mem
    exact names.hasDomain (keys.detailDomain detail (serviceNext_detail_mem h mem))
  · intro record mem
    rcases serviceNext_record h mem with old | new
    · exact jobs.hasJob (keys.recordJob record old)
    · exact new

end Transaction

section System

variable {ω ι : Type*} {settings : AppSettings} {maxAttempts : Nat} {s s' : SystemState ω ι}
  {op : SystemOp ω ι} {trace later : List (SystemState ω ι × SystemOp ω ι)}

/-- What the rows, the executions and the ticks refer to is stored. -/
structure SystemState.Refers (s : SystemState ω ι) : Prop where
  keys : s.service.db.ForeignKeys
  read : ∀ worker task, (s.stage worker).task = some task → s.service.db.HasDomain task.domainId
  stamped : ∀ worker task detail existing, s.stage worker = .persisting task detail existing →
    detail.domainId = task.domainId
  found : ∀ scheduler now domainIds, s.ticks scheduler = some (now, domainIds) →
    ∀ domainId ∈ domainIds, s.service.db.HasDomain domainId

theorem ServiceChange.keepsNames {service : ServiceState} (h : ServiceChange maxAttempts s op service) :
    s.service.db.KeepsNames service.db := by
  cases h with
  | same => exact .refl _
  | external _ next => exact serviceNext_keepsNames next
  | reused _ next => exact serviceNext_keepsNames next
  | observed _ _ next =>
    have names : (s.writing _).db.KeepsNames service.db := serviceNext_keepsNames next
    exact names
  | scheduled _ next => exact serviceNext_keepsNames next

/-- A written detail is about the domain of a task that was read. -/
theorem SystemState.Refers.writing (refers : s.Refers) {worker : ω} {task : Task} {detail : DomainDetail}
    {existing : Option DomainDetail} {details : DetailTable} (stage : s.stage worker = .persisting task detail existing)
    (persisted : persistDetail detail existing s.details = some details) :
    (s.writing details).db.ForeignKeys := by
  obtain ⟨taskDomain, taskJob, detailDomain, recordJob⟩ := refers.keys
  refine ⟨taskDomain, taskJob, fun row mem => ?_, recordJob⟩
  obtain ⟨⟨v, stored⟩, others⟩ := persistDetail_persisted persisted
  have found : details.get row.domainId = some row := Table.get_eq_some_iff.mpr ⟨mem, rfl⟩
  by_cases own : row.domainId = detail.domainId
  · rw [own, refers.stamped worker task detail existing stage]
    exact refers.read worker task (congrArg ExecutionStage.task stage)
  · rw [others row.domainId own] at found
    exact detailDomain row (Table.get_eq_some_iff.mp found).1

theorem SystemState.Refers.change (refers : s.Refers) {service : ServiceState}
    (h : ServiceChange maxAttempts s op service) : service.db.ForeignKeys := by
  cases h with
  | same => exact refers.keys
  | @external op _ outside next =>
    refine refers.keys.serviceNext next fun uuid domainIds now named => ?_
    rw [named] at outside
    cases outside
  | reused _ next => exact refers.keys.serviceNext next fun _ _ _ named => by cases named
  | observed stage persisted next =>
    exact (refers.writing stage persisted).serviceNext next fun _ _ _ named => by cases named
  | @scheduled scheduler uuid now domainIds _ tick next =>
    refine refers.keys.serviceNext next fun _ _ _ named => ?_
    cases named
    exact refers.found scheduler now domainIds tick

theorem refers_init : (SystemState.init : SystemState ω ι).Refers := by
  refine ⟨⟨?_, ?_, ?_, ?_⟩, ?_, ?_, ?_⟩
  · intro t mem
    cases mem
  · intro t mem
    cases mem
  · intro detail mem
    cases mem
  · intro record mem
    cases mem
  · intro worker task working
    cases working
  · intro worker task detail existing persisting
    cases persisting
  · intro scheduler now domainIds tick
    cases tick

section Step

variable [DecidableEq ω] [DecidableEq ι]

theorem systemNext_ticks (h : systemNext settings maxAttempts s op = some s') {scheduler : ι}
    {now : Instant} {domainIds : List DomainId} (tick : s'.ticks scheduler = some (now, domainIds)) :
    s.ticks scheduler = some (now, domainIds) ∨
      ∀ domainId ∈ domainIds, s.service.db.HasDomain domainId := by
  cases op with
  | elapse duration =>
    cases Option.some.inj h
    exact Or.inl tick
  | service op =>
    obtain ⟨_, h⟩ := Option.ite_none_right_eq_some.mp h
    obtain ⟨_, _, rfl⟩ := Option.map_eq_some_iff.mp h
    exact Or.inl tick
  | work worker step =>
    obtain ⟨_, _, h⟩ := Option.bind_eq_some_iff.mp h
    obtain ⟨_, _, rfl⟩ := Option.map_eq_some_iff.mp h
    exact Or.inl tick
  | discover other maxTasks rows =>
    simp only [systemNext] at h
    split at h
    next => cases h
    next =>
      obtain ⟨_, h⟩ := Option.ite_none_right_eq_some.mp h
      cases Option.some.inj h
      dsimp only at tick
      by_cases own : scheduler = other
      · subst own
        rw [Function.update_self] at tick
        cases Option.some.inj tick
        right
        intro domainId mem
        obtain ⟨_, _, _, _, domain, stored, _⟩ := mem_getDomainsNeedingRefresh mem
        obtain ⟨held, named⟩ := Table.get_eq_some_iff.mp stored
        exact ⟨domain, held, named⟩
      · rw [Function.update_of_ne own] at tick
        exact Or.inl tick
  | createTasks other uuid =>
    simp only [systemNext] at h
    split at h
    next => cases h
    next =>
      obtain ⟨_, _, rfl⟩ := Option.map_eq_some_iff.mp h
      dsimp only at tick
      by_cases own : scheduler = other
      · subst own
        rw [Function.update_self] at tick
        cases tick
      · rw [Function.update_of_ne own] at tick
        exact Or.inl tick

theorem SystemState.Refers.step (refers : s.Refers) (h : systemNext settings maxAttempts s op = some s') :
    s'.Refers := by
  have change := (systemNext_effect h).service
  have names := change.keepsNames
  refine ⟨refers.change change, ?_, ?_, ?_⟩
  · intro worker task working
    apply names.hasDomain
    rcases stage_step h worker with same | ⟨step, _, moved⟩
    · exact refers.read worker task (same ▸ working)
    · rcases moved.task_origin working with known | row
      · exact refers.read worker task known
      · exact refers.keys.taskDomain task row
  · intro worker task detail existing persisting
    rcases stage_step h worker with same | ⟨step, _, moved⟩
    · exact refers.stamped worker task detail existing (same ▸ persisting)
    · rw [persisting] at moved
      generalize s.stage worker = stage at moved
      cases moved
      rfl
  · intro scheduler now domainIds tick domainId mem
    apply names.hasDomain
    rcases systemNext_ticks h tick with before | stored
    · exact refers.found scheduler now domainIds before domainId mem
    · exact stored domainId mem

theorem refers_run (run : SystemRun settings maxAttempts .init trace s) : s.Refers :=
  Run.invariant (P := SystemState.Refers) run refers_init fun refers h => refers.step h

/-- No write of the service refers to a row that is not there: the keys hold in
every reachable state, and so for every detail that is about to be written. -/
theorem foreign_keys_hold (run : SystemRun settings maxAttempts .init trace s) :
    s.service.db.ForeignKeys ∧
      (∀ worker task detail existing, s.stage worker = .persisting task detail existing →
        s.service.db.HasDomain detail.domainId) ∧
      ∀ scheduler now domainIds, s.ticks scheduler = some (now, domainIds) →
        ∀ domainId ∈ domainIds, s.service.db.HasDomain domainId := by
  have refers := refers_run run
  refine ⟨refers.keys, ?_, refers.found⟩
  intro worker task detail existing persisting
  rw [refers.stamped worker task detail existing persisting]
  exact refers.read worker task (congrArg ExecutionStage.task persisting)

end Step

end System

theorem foreign_keys_hold_completed :
    ∃ s : SystemState Nat Nat, exec (systemNext .defaults 3) .init completingOps = some s ∧
      s.service.db.ForeignKeys ∧ s.service.db.tasks.rows ≠ [] ∧ s.details.rows ≠ [] := by
  have enabled : (exec (systemNext .defaults 3) (SystemState.init : SystemState Nat Nat)
      completingOps).map (fun s => (s.service.db.tasks.rows.isEmpty, s.details.rows.isEmpty)) =
        some (false, false) := by decide
  obtain ⟨s, reached, rows⟩ := Option.map_eq_some_iff.mp enabled
  injection rows with tasks details
  refine ⟨s, reached, (foreign_keys_hold (exec_run reached)).1, ?_, ?_⟩
  · intro none_left
    rw [none_left] at tasks
    cases tasks
  · intro none_left
    rw [none_left] at details
    cases details

end DomainProcessing
