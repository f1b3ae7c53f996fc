import DomainProcessing.CompletedResults

namespace DomainProcessing

open Tables Runs

/-- The detail was stamped at `c` or later, and its next refresh comes after. -/
def Renewed (c : Instant) (detail : DomainDetail) : Prop :=
  c ≤ detail.fetchedAt ∧ c < detail.nextRefreshAt

/-- A worker that reads the detail at `c` or later does not reuse it, unless it
was stamped since. -/
def Renewable (settings : AppSettings) (c : Instant) (detail : DomainDetail) : Prop :=
  checkFreshness settings.domainDetailFreshnessSeconds c (some detail) = false ∨ Renewed c detail

/-- The execution has no observation of the domain from before `c` to write. -/
def ExecutionStage.WritesSince (c : Instant) (domainId : DomainId) : ExecutionStage → Prop
  | .planned task _ http plannedAt | .versionRead task _ http plannedAt _ =>
    task.domainId = domainId → c < nextRefresh http plannedAt
  | .persisting _ detail _ => detail.domainId = domainId → Renewed c detail
  | _ => True

/-- The detail that an execution of a refresh task has found fresh is not deleted. -/
def ExecutionStage.StillStored (details : DetailTable) : ExecutionStage → Prop
  | .fresh task => task.type = .refresh → (details.get task.domainId).isSome = true
  | _ => True

instance (c : Instant) (detail : DomainDetail) : Decidable (Renewed c detail) :=
  inferInstanceAs (Decidable (c ≤ detail.fetchedAt ∧ c < detail.nextRefreshAt))

instance (settings : AppSettings) (c : Instant) (detail : DomainDetail) :
    Decidable (Renewable settings c detail) :=
  inferInstanceAs (Decidable (_ = false ∨ Renewed c detail))

instance (c : Instant) (domainId : DomainId) (stage : ExecutionStage) :
    Decidable (stage.WritesSince c domainId) :=
  match stage with
  | .planned task _ http plannedAt | .versionRead task _ http plannedAt _ =>
    inferInstanceAs (Decidable (task.domainId = domainId → c < nextRefresh http plannedAt))
  | .persisting _ detail _ =>
    inferInstanceAs (Decidable (detail.domainId = domainId → Renewed c detail))
  | .idle | .read _ _ | .needsProcessing _ | .reread _ _ | .probing _ | .fresh _ =>
    inferInstanceAs (Decidable True)

instance (details : DetailTable) (stage : ExecutionStage) : Decidable (stage.StillStored details) :=
  match stage with
  | .fresh task =>
    inferInstanceAs (Decidable (task.type = .refresh → (details.get task.domainId).isSome = true))
  | .idle | .read _ _ | .needsProcessing _ | .reread _ _ | .probing _ | .planned _ _ _ _
  | .versionRead _ _ _ _ _ | .persisting _ _ _ => inferInstanceAs (Decidable True)

variable {ω ι : Type*}

/-- A tick that creates a refresh task at `c` finds the domain's detail past the
freshness window and no older observation about to be written, and the detail
that completes a refresh task as fresh is still there. -/
def RefreshesAhead (settings : AppSettings) (s : SystemState ω ι) : SystemOp ω ι → Prop
  | .createTasks scheduler _ => ∀ tick ∈ s.ticks scheduler, ∀ domainId ∈ tick.2,
    s.tasks.filter (openRefresh domainId) = [] →
      (∀ detail ∈ s.details.get domainId, Renewable settings tick.1 detail) ∧
        ∀ worker, (s.stage worker).WritesSince tick.1 domainId
  | .work worker .completeFresh => (s.stage worker).StillStored s.details
  | _ => True

/-- The step sets the task to `COMPLETED`. -/
def SetCompleted (s : SystemState ω ι) (op : SystemOp ω ι) (s' : SystemState ω ι) (t : Task) : Prop :=
  t ∈ s'.tasks ∧ t.status = .completed ∧
    ((completedTask s op).map Task.id = some t.id ∨
      ∀ old ∈ s.tasks, old.id = t.id → old.status ≠ .completed)

theorem refreshTasksFor_due {uuid : DomainId → TaskId} {now : Instant} {domainIds : List DomainId}
    {seen created : List Task} (h : refreshTasksFor uuid now domainIds seen = some created)
    {t : Task} (ht : t ∈ created) :
    t.createdAt = now ∧ t.domainId ∈ domainIds ∧ seen.filter (openRefresh t.domainId) = [] := by
  induction domainIds generalizing seen created with
  | nil =>
    cases Option.some.inj h
    cases ht
  | cons domainId rest ih =>
    unfold refreshTasksFor at h
    split at h
    next free =>
      obtain ⟨more, hm, h⟩ := Option.bind_eq_some_iff.mp h
      cases Option.some.inj h
      rcases List.mem_cons.mp ht with rfl | ht
      · exact ⟨rfl, List.mem_cons_self, free⟩
      · obtain ⟨at_now, listed, none_open⟩ := ih hm ht
        rw [List.filter_append] at none_open
        exact ⟨at_now, List.mem_cons_of_mem _ listed, (List.append_eq_nil_iff.mp none_open).1⟩
    next =>
      obtain ⟨at_now, listed, none_open⟩ := ih h ht
      exact ⟨at_now, List.mem_cons_of_mem _ listed, none_open⟩
    next => cases h

theorem createJob_added {sub : Submission} {db : Db} {t : Task}
    (ht : t ∈ (createJob sub db).1.tasks.rows) : t ∈ db.tasks.rows ∨ t.type = .userRequest := by
  rcases createJob_committed sub db with ⟨same, _⟩ | ⟨opened, ho, hp, _⟩
  · rw [same] at ht
    exact Or.inl ht
  · obtain ⟨_, valid, invalid, tasks, _, hv, hi, ins, after⟩ := persistTasks_cases hp
    rw [(openJob_spec ho).2.1] at ins
    rw [after] at ht
    rcases List.mem_append.mp (Table.insert_rows ins ▸ ht) with old | new
    · exact Or.inl old
    · rcases List.mem_append.mp new with valid_task | invalid_task
      · obtain ⟨_, _, rfl⟩ := validTasks_shape hv valid_task
        exact Or.inr rfl
      · obtain ⟨_, _, _, rfl⟩ := invalidTasks_shape hi invalid_task
        exact Or.inr rfl

/-- The row stands for an earlier one with the same subject. -/
def Continues (tasks : List Task) (t : Task) : Prop :=
  ∃ old ∈ tasks, old.id = t.id ∧ old.domainId = t.domainId ∧ old.type = t.type ∧
    old.createdAt = t.createdAt

variable {settings : AppSettings} {maxAttempts : Nat} {s s' : SystemState ω ι} {op : SystemOp ω ι}
  {trace : List (SystemState ω ι × SystemOp ω ι)} {t task : Task} {domainId : DomainId} {c : Instant}

theorem serviceNext_origin {service service' : ServiceState} {o : ServiceOp}
    (h : serviceNext maxAttempts service o = some service') (ht : t ∈ service'.tasks)
    (refresh : t.type = .refresh) :
    Continues service.tasks t ∨ ∃ uuid domainIds now, o = .createRefreshTasks uuid domainIds now ∧
      t.createdAt = now ∧ t.domainId ∈ domainIds ∧
        service.tasks.filter (openRefresh t.domainId) = [] := by
  have kept : t ∈ service.tasks → Continues service.tasks t := fun hm => ⟨t, hm, rfl, rfl, rfl, rfl⟩
  have rewritten : ∀ old ∈ service.tasks, rowAfter maxAttempts service.tasks o old = t →
      Continues service.tasks t := by
    rintro old hm rfl
    obtain ⟨hd, hty, hc⟩ := @rowAfter_subject maxAttempts service.tasks o old
    exact ⟨old, hm, (rowAfter_id _ _ _).symm, hd.symm, hty.symm, hc.symm⟩
  obtain ⟨new, newJobs, effect⟩ := serviceNext_effect h
  rw [effect.tasks] at ht
  rcases List.mem_append.mp ht with mapped | appended
  · obtain ⟨old, hm, same⟩ := List.mem_map.mp mapped
    exact Or.inl (rewritten old hm same)
  · cases o with
    | createJob sub =>
      cases Option.some.inj h
      rw [← effect.tasks] at ht
      rcases createJob_added ht with old | user
      · exact Or.inl (kept old)
      · rw [refresh] at user
        cases user
    | createRefreshTasks uuid domainIds now =>
      cases Option.some.inj h
      rw [← effect.tasks] at ht
      have ht : t ∈ ((createRefreshTasks uuid domainIds now service.db.tasks).getD
        service.db.tasks).rows := ht
      cases hc : createRefreshTasks uuid domainIds now service.db.tasks with
      | none =>
        rw [hc] at ht
        exact Or.inl (kept ht)
      | some after =>
        rw [hc, Option.getD_some] at ht
        obtain ⟨created, hcreated, inserted⟩ := Option.bind_eq_some_iff.mp hc
        rw [Table.insert_rows inserted] at ht
        rcases List.mem_append.mp ht with old | new
        · exact Or.inl (kept old)
        · obtain ⟨at_now, listed, none_open⟩ := refreshTasksFor_due hcreated new
          exact Or.inr ⟨uuid, domainIds, now, rfl, at_now, listed, none_open⟩
    | claimTasks | recoveryCycle | writeCompleteTask | writeFailTask | writeFailTaskWithDeactivation
    | writeRescheduleTask =>
      have nothing := effect.added
      cases nothing
      cases appended

/-- The row was added for a domain that a tick had found due at the instant the
row bears. -/
def CreatedByTick (trace : List (SystemState ω ι × SystemOp ω ι)) (t : Task) : Prop :=
  ∃ q scheduler uuid domainIds, (q, .createTasks scheduler uuid) ∈ trace ∧
    q.ticks scheduler = some (t.createdAt, domainIds) ∧ t.domainId ∈ domainIds

section Origin

variable [DecidableEq ω] [DecidableEq ι]

theorem refresh_origin (h : systemNext settings maxAttempts s op = some s') (ht : t ∈ s'.tasks)
    (refresh : t.type = .refresh) :
    Continues s.tasks t ∨ ∃ scheduler uuid domainIds, op = .createTasks scheduler uuid ∧
      s.ticks scheduler = some (t.createdAt, domainIds) ∧ t.domainId ∈ domainIds ∧
        s.tasks.filter (openRefresh t.domainId) = [] := by
  have change := (systemNext_effect h).service
  generalize hs : s'.service = service at change
  have rows : t ∈ service.tasks := hs ▸ ht
  have unscheduled : ∀ {origin : ServiceState} {o : ServiceOp}, origin.tasks = s.tasks →
      (∀ uuid domainIds now, o ≠ .createRefreshTasks uuid domainIds now) →
      serviceNext maxAttempts origin o = some service → Continues s.tasks t := by
    intro origin o same other hn
    rcases serviceNext_origin hn rows refresh with old | ⟨uuid, domainIds, now, rfl, _⟩
    · exact same ▸ old
    · exact absurd rfl (other uuid domainIds now)
  cases change with
  | same => exact Or.inl ⟨t, rows, rfl, rfl, rfl, rfl⟩
  | @external o _ external hn =>
    refine Or.inl (unscheduled rfl (fun uuid domainIds now he => ?_) hn)
    rw [he] at external
    cases external
  | reused _ hn => exact Or.inl (unscheduled rfl (by simp) hn)
  | @observed _ _ _ _ details _ _ _ hn =>
    exact Or.inl (@unscheduled (s.writing details) _ rfl (by simp) hn)
  | @scheduled scheduler uuid now domainIds _ tick hn =>
    rcases serviceNext_origin hn rows refresh with
      old | ⟨uuid', domainIds', now', ho, at_now, listed, free⟩
    · exact Or.inl old
    · cases ho
      exact Or.inr ⟨scheduler, uuid, domainIds, rfl, at_now ▸ tick, listed, free⟩

theorem created_by_tick (run : SystemRun settings maxAttempts .init trace s) :
    ∀ t ∈ s.tasks, t.type = .refresh → CreatedByTick trace t := by
  induction run with
  | start =>
    intro t ht
    cases ht
  | @step trace r op u run h ih =>
    intro t ht refresh
    rcases refresh_origin h ht refresh with
      ⟨old, hm, _, hd, hty, hc⟩ | ⟨scheduler, uuid, domainIds, rfl, tick, listed, _⟩
    · obtain ⟨q, scheduler, uuid, domainIds, step, tick, listed⟩ := ih old hm (hty.trans refresh)
      exact ⟨q, scheduler, uuid, domainIds, List.mem_cons_of_mem _ step, hc ▸ tick, hd ▸ listed⟩
    · exact ⟨r, scheduler, uuid, domainIds, List.mem_cons_self, tick, listed⟩

end Origin

theorem checkFreshness_mono {freshness : Nat} {now : Instant} {detail : DomainDetail} (hc : c ≤ now)
    (fresh : checkFreshness freshness now (some detail) = true) :
    checkFreshness freshness c (some detail) = true := by
  simp only [checkFreshness, decide_eq_true_eq] at fresh ⊢
  exact (Int.sub_le_sub_right hc _).trans fresh

theorem renewed_of_fresh {now : Instant} {detail : DomainDetail}
    (renewable : Renewable settings c detail) (hc : c ≤ now)
    (fresh : checkFreshness settings.domainDetailFreshnessSeconds now (some detail) = true) :
    Renewed c detail := by
  rcases renewable with stale | renewed
  · rw [checkFreshness_mono hc fresh] at stale
    cases stale
  · exact renewed

/-- What an execution of a refresh task has read does not let it reuse a detail
from before the task. -/
def ExecutionStage.ReadsAhead (settings : AppSettings) (details : DetailTable) :
    ExecutionStage → Prop
  | .read task found | .reread task found => task.type = .refresh → ∀ detail ∈ found,
    Renewable settings task.createdAt detail ∧ (Renewed task.createdAt detail →
      ∀ stored ∈ details.get task.domainId, Renewed task.createdAt stored)
  | .fresh task => task.type = .refresh →
    ∀ stored ∈ details.get task.domainId, Renewed task.createdAt stored
  | _ => True

theorem readsAhead_mono {details details' : DetailTable} {stage : ExecutionStage}
    (h : stage.ReadsAhead settings details)
    (kept : ∀ task, stage.task = some task → task.type = .refresh →
      (∀ stored ∈ details.get task.domainId, Renewed task.createdAt stored) →
      ∀ stored ∈ details'.get task.domainId, Renewed task.createdAt stored) :
    stage.ReadsAhead settings details' := by
  cases stage with
  | read task found =>
    intro refresh detail hd
    obtain ⟨renewable, later⟩ := h refresh detail hd
    exact ⟨renewable, fun renewed => kept task rfl refresh (later renewed)⟩
  | reread task found =>
    intro refresh detail hd
    obtain ⟨renewable, later⟩ := h refresh detail hd
    exact ⟨renewable, fun renewed => kept task rfl refresh (later renewed)⟩
  | fresh task => exact fun refresh => kept task rfl refresh (h refresh)
  | idle | needsProcessing | probing | planned | versionRead | persisting => trivial

theorem readsAhead_found {details : DetailTable}
    (renewable : task.type = .refresh → ∀ stored ∈ details.get task.domainId,
      Renewable settings task.createdAt stored) (refresh : task.type = .refresh) :
    ∀ detail ∈ details.get task.domainId, Renewable settings task.createdAt detail ∧
      (Renewed task.createdAt detail →
        ∀ stored ∈ details.get task.domainId, Renewed task.createdAt stored) := by
  intro detail hd
  refine ⟨renewable refresh detail hd, fun renewed stored hstored => ?_⟩
  rw [Option.mem_unique hstored hd]
  exact renewed

theorem readsAhead_step {stage stage' : ExecutionStage} {step : ExecutionStep}
    (h : StageStep settings s stage step stage') (ahead : stage.ReadsAhead settings s.details)
    (past : ∀ task, stage.task = some task → task.type = .refresh → task.createdAt ≤ s.now)
    (renewable : ∀ task, stage'.task = some task → task.type = .refresh →
      ∀ stored ∈ s.details.get task.domainId, Renewable settings task.createdAt stored) :
    stage'.ReadsAhead settings s.details := by
  have reused : ∀ {task : Task} {found : Option DomainDetail}, stage.task = some task →
      checkFreshness settings.domainDetailFreshnessSeconds s.now found = true →
      (task.type = .refresh → ∀ detail ∈ found, Renewable settings task.createdAt detail ∧
        (Renewed task.createdAt detail →
          ∀ stored ∈ s.details.get task.domainId, Renewed task.createdAt stored)) →
      ExecutionStage.ReadsAhead settings s.details (.fresh task) := by
    intro task found ht fresh read refresh
    cases found with
    | none => cases fresh
    | some detail =>
      obtain ⟨renewable, later⟩ := read refresh detail rfl
      exact later (renewed_of_fresh renewable (past task ht refresh) fresh)
  cases h with
  | @start _ task found => exact readsAhead_found (renewable task rfl)
  | @acquireLock task => exact readsAhead_found (renewable task rfl)
  | reuse fresh => exact reused rfl fresh ahead
  | reuseAfterLock fresh => exact reused rfl fresh ahead
  | process | probe | probed | readVersion | stampDetail | ended => trivial

/-- An observation that starts after `c` is written with a stamp after `c`. -/
theorem writesSince_step {stage stage' : ExecutionStage} {step : ExecutionStep}
    (h : StageStep settings s stage step stage') (since : stage.WritesSince c domainId)
    (hc : c ≤ s.now) : stage'.WritesSince c domainId := by
  cases h with
  | @probed _ _ http =>
    intro _
    have grows : s.now < nextRefresh http s.now := by
      unfold nextRefresh seconds
      split
      · exact Int.lt_add_of_pos_right _ (by decide)
      · exact Int.lt_add_of_pos_right _ (by decide)
    exact Int.lt_of_le_of_lt hc grows
  | readVersion => exact since
  | stampDetail => exact fun same => ⟨hc, since same⟩
  | start | reuse | process | acquireLock | reuseAfterLock | probe | ended => trivial

/-- Whatever is stored for the domain, or is about to be, does not pass for a
result of a refresh that was due at `c`. -/
structure Ahead (settings : AppSettings) (s : SystemState ω ι) (c : Instant) (domainId : DomainId) :
    Prop where
  past : c ≤ s.now
  stored : ∀ detail ∈ s.details.get domainId, Renewable settings c detail
  writes : ∀ worker, (s.stage worker).WritesSince c domainId

structure RefreshInv (settings : AppSettings) (s : SystemState ω ι) : Prop where
  ticks : ∀ scheduler, ∀ tick ∈ s.ticks scheduler, tick.1 ≤ s.now
  rows : ∀ t ∈ s.tasks, t.type = .refresh → Ahead settings s t.createdAt t.domainId
  reads : ∀ worker, (s.stage worker).ReadsAhead settings s.details

theorem known_ahead (inv : RefreshInv settings s) (known : KnownTask s task)
    (refresh : task.type = .refresh) : Ahead settings s task.createdAt task.domainId := by
  obtain ⟨row, hm, _, hd, hty, hc⟩ := known
  exact hd ▸ hc ▸ inv.rows row hm (hty.trans refresh)

variable [DecidableEq ω] [DecidableEq ι]

theorem ticks_step (h : systemNext settings maxAttempts s op = some s')
    (past : ∀ scheduler, ∀ tick ∈ s.ticks scheduler, tick.1 ≤ s.now) (scheduler : ι) :
    ∀ tick ∈ s'.ticks scheduler, tick.1 ≤ s'.now := by
  intro tick ht
  have later := (systemNext_effect h).now
  rcases (systemNext_effect h).ticks with same | ⟨scheduler', found, hs, now⟩
  · rw [same] at ht
    exact (past scheduler tick ht).trans later
  · rw [hs] at ht
    by_cases hi : scheduler = scheduler'
    · subst hi
      rw [Function.update_self] at ht
      exact now tick ht ▸ later
    · rw [Function.update_of_ne hi] at ht
      exact (past scheduler tick ht).trans later

theorem ahead_detail (h : systemNext settings maxAttempts s op = some s')
    (ahead : Ahead settings s c domainId) :
    s'.details.get domainId = s.details.get domainId ∨
      ∀ detail ∈ s'.details.get domainId, Renewed c detail := by
  rcases systemNext_detail h domainId with
    same | ⟨_, _, _, gone⟩ | ⟨worker, task, detail, existing, v, _, hstage, hd, stored⟩
  · exact Or.inl same
  · refine Or.inr fun detail hm => ?_
    rw [gone] at hm
    cases hm
  · refine Or.inr fun detail' hm => ?_
    have since := ahead.writes worker
    rw [hstage] at since
    rw [stored] at hm
    cases Option.some.inj hm
    exact since hd

theorem ahead_step (h : systemNext settings maxAttempts s op = some s')
    (ahead : Ahead settings s c domainId) : Ahead settings s' c domainId := by
  refine ⟨ahead.past.trans (systemNext_effect h).now, fun detail hm => ?_, fun worker => ?_⟩
  · rcases ahead_detail h ahead with same | renewed
    · exact ahead.stored detail (same ▸ hm)
    · exact Or.inr (renewed detail hm)
  · rcases stage_step h worker with same | ⟨step, rfl, move⟩
    · rw [same]
      exact ahead.writes worker
    · exact writesSince_step move (ahead.writes worker) ahead.past

theorem renewed_step (h : systemNext settings maxAttempts s op = some s')
    (ahead : Ahead settings s c domainId)
    (renewed : ∀ detail ∈ s.details.get domainId, Renewed c detail) :
    ∀ detail ∈ s'.details.get domainId, Renewed c detail := by
  rcases ahead_detail h ahead with same | written
  · exact same ▸ renewed
  · exact written

theorem rows_step (h : systemNext settings maxAttempts s op = some s')
    (inv : RefreshInv settings s) (guard : RefreshesAhead settings s op) (ht : t ∈ s'.tasks)
    (refresh : t.type = .refresh) : Ahead settings s' t.createdAt t.domainId := by
  apply ahead_step h
  rcases refresh_origin h ht refresh with
    ⟨old, hm, _, hd, hty, hc⟩ | ⟨scheduler, uuid, domainIds, rfl, tick, listed, free⟩
  · exact hd ▸ hc ▸ inv.rows old hm (hty.trans refresh)
  · obtain ⟨stored, writes⟩ := guard _ tick t.domainId listed free
    exact ⟨inv.ticks scheduler _ tick, stored, writes⟩

theorem reads_step (run : SystemRun settings maxAttempts .init trace s)
    (h : systemNext settings maxAttempts s op = some s') (inv : RefreshInv settings s) (worker : ω) :
    (s'.stage worker).ReadsAhead settings s'.details := by
  have before : (s'.stage worker).ReadsAhead settings s.details ∧
      ∀ task, (s'.stage worker).task = some task → KnownTask s task := by
    rcases stage_step h worker with same | ⟨step, rfl, move⟩
    · rw [same]
      exact ⟨inv.reads worker, knownTask_run run worker⟩
    · have known : ∀ task, (s'.stage worker).task = some task → KnownTask s task := by
        intro task ht
        rcases move.task_origin ht with working | hm
        · exact knownTask_run run worker task working
        · exact ⟨task, hm, rfl, rfl, rfl, rfl⟩
      refine ⟨readsAhead_step move (inv.reads worker) ?_ ?_, known⟩
      · intro task working refresh
        exact (known_ahead inv (knownTask_run run worker task working) refresh).past
      · intro task working refresh
        exact (known_ahead inv (known task working) refresh).stored
  obtain ⟨ahead, known⟩ := before
  refine readsAhead_mono ahead fun task working refresh renewed => ?_
  exact renewed_step h (known_ahead inv (known task working) refresh) renewed

theorem refreshInv_run (run : SystemRun settings maxAttempts .init trace s)
    (guard : ∀ p ∈ trace, RefreshesAhead settings p.1 p.2) : RefreshInv settings s := by
  induction run with
  | start =>
    refine ⟨fun scheduler tick ht => ?_, fun t ht => ?_, fun worker => trivial⟩
    · cases ht
    · cases ht
  | @step trace r op u run h ih =>
    obtain ⟨now, earlier⟩ := List.forall_mem_cons.mp guard
    have inv := ih earlier
    exact ⟨ticks_step h inv.ticks, fun t ht => rows_step h inv now ht, reads_step run h inv⟩

theorem completedTask_of_set (h : systemNext settings maxAttempts s op = some s')
    (set : SetCompleted s op s' t) : ∃ task, completedTask s op = some task ∧ task.id = t.id := by
  obtain ⟨ht, completed, written | new⟩ := set
  · exact Option.map_eq_some_iff.mp written
  · rcases newly_completed h ht completed with ⟨old, hold, hid, _, hc⟩ | written
    · exact absurd hc (new old hold hid)
    · exact written

theorem completion_renews (run : SystemRun settings maxAttempts .init trace s)
    (h : systemNext settings maxAttempts s op = some s') (inv : RefreshInv settings s)
    (guard : RefreshesAhead settings s op) (hc : completedTask s op = some task)
    (refresh : task.type = .refresh) :
    ∃ detail ∈ s'.details.get task.domainId, Renewed task.createdAt detail := by
  have ahead := known_ahead inv (completedTask_known run h hc) refresh
  rcases completion_cases h hc with
    ⟨worker, detail, existing, v, rfl, hstage, stored⟩ | ⟨worker, rfl, hstage, kept⟩
  · have same := persisting_domain run worker task detail existing hstage
    have since := ahead.writes worker
    rw [hstage] at since
    exact ⟨{ detail with version := v }, same ▸ stored, since same⟩
  · have present : (s.stage worker).StillStored s.details := guard
    have reads := inv.reads worker
    rw [hstage] at present reads
    obtain ⟨detail, hd⟩ := Option.isSome_iff_exists.mp (present refresh)
    exact ⟨detail, kept.trans hd, reads refresh detail hd⟩

theorem set_created_by_tick (run : SystemRun settings maxAttempts .init trace s)
    (h : systemNext settings maxAttempts s op = some s') (set : SetCompleted s op s' t)
    (refresh : t.type = .refresh) : CreatedByTick trace t := by
  obtain ⟨task, hc, hid⟩ := completedTask_of_set h set
  have known := completedTask_known run h hc
  obtain ⟨hd, hty, hcreated⟩ := knownTask_row (knownTask_step h known) set.1 hid
  obtain ⟨row, hm, _, hrd, hrty, hrc⟩ := known
  have created := created_by_tick run row hm (hrty.trans (hty.trans refresh))
  unfold CreatedByTick at created ⊢
  rw [hrd.trans hd, hrc.trans hcreated] at created
  exact created

/-- In a run whose ticks find the domain past the freshness window, a refresh
task that is set to completed has a detail stamped since the tick, with its next
refresh after the tick. -/
theorem completed_refresh_renews (run : SystemRun settings maxAttempts .init trace s)
    (guard : ∀ p ∈ trace, RefreshesAhead settings p.1 p.2)
    (h : systemNext settings maxAttempts s op = some s') (ahead : RefreshesAhead settings s op)
    (set : SetCompleted s op s' t) (refresh : t.type = .refresh) :
    CreatedByTick trace t ∧ ∃ detail ∈ s'.details.get t.domainId, Renewed t.createdAt detail := by
  refine ⟨set_created_by_tick run h set refresh, ?_⟩
  obtain ⟨task, hc, hid⟩ := completedTask_of_set h set
  have known := knownTask_step h (completedTask_known run h hc)
  obtain ⟨hd, hty, hcreated⟩ := knownTask_row known set.1 hid
  have renewed := completion_renews run h (refreshInv_run run guard) ahead hc (hty.trans refresh)
  rw [hd, hcreated] at renewed
  exact renewed

instance {n : Nat} {ι : Type*} (settings : AppSettings) (s : SystemState (Fin n) ι)
    (op : SystemOp (Fin n) ι) : Decidable (RefreshesAhead settings s op) :=
  match op with
  | .createTasks scheduler _ =>
    inferInstanceAs (Decidable (∀ tick ∈ s.ticks scheduler, ∀ domainId ∈ tick.2,
      s.tasks.filter (openRefresh domainId) = [] →
        (∀ detail ∈ s.details.get domainId, Renewable settings tick.1 detail) ∧
          ∀ worker, (s.stage worker).WritesSince tick.1 domainId))
  | .work worker .completeFresh => inferInstanceAs (Decidable ((s.stage worker).StillStored s.details))
  | .elapse _ | .service _ | .discover _ _ _ | .work _ (.start _) | .work _ .judge
  | .work _ .acquireLock | .work _ (.probed _ _) | .work _ .readVersion | .work _ .stampDetail
  | .work _ .commit | .work _ .abandon => inferInstanceAs (Decidable True)

def single (step : ExecutionStep) : SystemOp (Fin 1) (Fin 1) := .work 0 step

/-- A processed domain is due 25 hours later; its refresh task is claimed. -/
def refreshDueOps : List (SystemOp (Fin 1) (Fin 1)) :=
  [.service (.createJob oneTaskSubmission), .service (.claimTasks 1 120 none 0)] ++
    [.start 1, .judge, .acquireLock, .judge, .probed exampleDns exampleHttp, .readVersion,
      .stampDetail, .commit].map single ++
    [.elapse 90000000000, .discover 0 10 [stampedDetail 11 exampleDns exampleHttp 0 0 0],
      .createTasks 0 fun _ => 2, .service (.claimTasks 1 90120000000 none 90000000000)]

def reprobedOps : List (SystemOp (Fin 1) (Fin 1)) :=
  refreshDueOps ++ [.start 2, .judge, .acquireLock, .judge, .probed exampleDns exampleHttp,
    .readVersion, .stampDetail].map single

theorem completed_refresh_renews_daily :
    ∃ (s s' : SystemState (Fin 1) (Fin 1)) (t : Task),
      exec (systemNext .defaults 3) .init reprobedOps = some s ∧
      systemNext .defaults 3 s (single .commit) = some s' ∧
      SetCompleted s (single .commit) s' t ∧ t.type = .refresh ∧
      CreatedByTick (steps (systemNext .defaults 3) .init reprobedOps) t ∧
      ∃ detail ∈ s'.details.get t.domainId, Renewed t.createdAt detail := by
  have enabled : ((exec (systemNext .defaults 3) .init reprobedOps).bind fun s =>
      (systemNext .defaults 3 s (single .commit)).map fun s' =>
        (s'.tasks.any fun t => t.status = .completed ∧ t.type = .refresh ∧
          (completedTask s (single .commit)).map Task.id = some t.id)) = some true := by
    decide +kernel
  obtain ⟨s, hs, rest⟩ := Option.bind_eq_some_iff.mp enabled
  obtain ⟨s', h, found⟩ := Option.map_eq_some_iff.mp rest
  obtain ⟨t, ht, shown⟩ := List.any_eq_true.mp found
  obtain ⟨completed, refresh, written⟩ := of_decide_eq_true shown
  have guard : ∀ p ∈ steps (systemNext .defaults 3) (SystemState.init : SystemState (Fin 1) (Fin 1))
      reprobedOps, RefreshesAhead .defaults p.1 p.2 := by
    decide +kernel
  have set : SetCompleted s (single .commit) s' t := ⟨ht, completed, Or.inl written⟩
  exact ⟨s, s', t, hs, h, set, refresh,
    completed_refresh_renews (exec_run hs) guard h trivial set refresh⟩

def longFreshness : AppSettings :=
  { AppSettings.defaults with
    domainDetailFreshnessSeconds := 172800
    one_le_domainDetailFreshnessSeconds := by decide }

theorem completed_refresh_reuses :
    ∃ (settings : AppSettings) (trace : List (SystemState (Fin 1) (Fin 1) × SystemOp (Fin 1) (Fin 1)))
      (s s' : SystemState (Fin 1) (Fin 1)) (op : SystemOp (Fin 1) (Fin 1)) (t : Task),
      SystemRun settings 3 .init trace s ∧ systemNext settings 3 s op = some s' ∧
      SetCompleted s op s' t ∧ t.type = .refresh ∧ CreatedByTick trace t ∧
      ∃ detail, s'.details.get t.domainId = some detail ∧ detail.fetchedAt < t.createdAt ∧
        detail.nextRefreshAt ≤ t.createdAt := by
  have enabled : ((exec (systemNext longFreshness 3) .init
      (refreshDueOps ++ [.start 2, .judge].map single)).bind fun s =>
        (systemNext longFreshness 3 s (single .completeFresh)).map fun s' =>
          (s'.tasks.any fun t => t.status = .completed ∧ t.type = .refresh ∧
            (completedTask s (single .completeFresh)).map Task.id = some t.id ∧
            (s'.details.get t.domainId).any fun detail =>
              detail.fetchedAt < t.createdAt ∧ detail.nextRefreshAt ≤ t.createdAt)) = some true := by
    decide +kernel
  obtain ⟨s, hs, rest⟩ := Option.bind_eq_some_iff.mp enabled
  obtain ⟨s', h, found⟩ := Option.map_eq_some_iff.mp rest
  obtain ⟨t, ht, shown⟩ := List.any_eq_true.mp found
  obtain ⟨completed, refresh, written, old⟩ := of_decide_eq_true shown
  obtain ⟨detail, stored, stale⟩ := (Option.any_eq_true _ _).mp old
  have set : SetCompleted s (single .completeFresh) s' t := ⟨ht, completed, Or.inl written⟩
  have run := exec_run hs
  refine ⟨longFreshness, _, s, s', single .completeFresh, t, run, h, set, refresh, ?_, detail, stored,
    of_decide_eq_true stale⟩
  exact set_created_by_tick run h set refresh

end DomainProcessing
