import DomainProcessing.ConcurrentIngestion

namespace DomainProcessing

open RowLocks

/-- Every task of the submission is in the table. -/
structure Submission.Ingested (sub : Submission) (tasks : TaskId → Option Task) : Prop where
  valid : ∀ p ∈ sub.finalValidDomains.zipIdx, ∃ domainId,
    tasks (sub.taskUuid p.2) = some (sub.pendingTask (sub.taskUuid p.2) domainId)
  invalid : ∀ p ∈ sub.invalidDomains.zipIdx sub.finalValidDomains.length, ∃ domainId,
    tasks (sub.taskUuid p.2) = some (sub.invalidTask (sub.taskUuid p.2) domainId p.1)

section Tasks

variable {sub : Submission} {tasks tasks' : TaskId → Option Task}

theorem Submission.Ingested.mono (h : sub.Ingested tasks)
    (grows : ∀ k t, tasks k = some t → tasks' k = some t) : sub.Ingested tasks' := by
  constructor
  · intro p hp
    obtain ⟨domainId, ht⟩ := h.valid p hp
    exact ⟨domainId, grows _ _ ht⟩
  · intro p hp
    obtain ⟨domainId, ht⟩ := h.invalid p hp
    exact ⟨domainId, grows _ _ ht⟩

theorem ingested_of_built {known : List Domain} {valid invalid : List Task}
    (hv : validTasks sub known = some valid) (hi : invalidTasks sub known = some invalid)
    (kept : ∀ t ∈ valid ++ invalid, tasks t.id = some t) : sub.Ingested tasks := by
  constructor
  · intro p hp
    obtain ⟨t, ht, he⟩ := exists_image_of_mapM hv hp
    obtain ⟨row, _, rfl⟩ := Option.map_eq_some_iff.mp he
    exact ⟨row.id, kept _ (List.mem_append_left _ ht)⟩
  · intro p hp
    obtain ⟨t, ht, he⟩ := exists_image_of_mapM hi hp
    obtain ⟨row, _, rfl⟩ := Option.map_eq_some_iff.mp he
    exact ⟨row.id, kept _ (List.mem_append_right _ ht)⟩

end Tasks

section Requests

variable {ι : Type*}

def IngestState.Quiet (s : IngestState ι) (r : ι) : Prop :=
  s.jobs.Quiet r ∧ s.records.Quiet r ∧ s.domains.Quiet r ∧ s.details.Quiet r ∧ s.tasks.Quiet r

/-- The committed record of the submission's scope satisfies `p`. -/
def IngestState.Stored (s : IngestState ι) (sub : Submission) (p : IdempotencyRecord → Prop) : Prop :=
  ∃ scope record, sub.scope = some scope ∧ s.records.committed scope = some record ∧ p record

def HoldsJob (s : IngestState ι) (sub : Submission) (r : ι) : Prop :=
  ∀ k row, s.jobs.locks k = some (r, row) ↔ k = sub.jobUuid ∧ row = some sub.jobRow

def HoldsRecord (s : IngestState ι) (sub : Submission) (r : ι) : Prop :=
  ∀ scope row, s.records.locks scope = some (r, row) ↔
    sub.scope = some scope ∧ row = some (sub.recordRow scope)

/-- The job of the submission is committed with its tasks and its record. -/
structure Written (s : IngestState ι) (sub : Submission) : Prop where
  job : s.jobs.committed sub.jobUuid = some sub.jobRow
  tasks : sub.Ingested s.tasks.committed
  record : ∀ scope, sub.scope = some scope → s.records.committed scope = some (sub.recordRow scope)

/-- What an answer without a new job says about the stored record. -/
def Answered (s : IngestState ι) (sub : Submission) : JobResponse → Prop
  | .accepted _ => False
  | .replayed jobId => s.Stored sub fun record =>
      record.requestHash = sub.requestHash ∧ record.jobId = jobId
  | .conflict => s.Stored sub fun record => record.requestHash ≠ sub.requestHash
  | .failed => True

variable {sub : Submission} {s t : IngestState ι} {r r' : ι} {phase : IngestPhase}

theorem holdsRecord_of_plain (quiet : s.records.Quiet r) (hs : sub.scope = none) :
    HoldsRecord s sub r := by
  intro scope row
  simp [hs, quiet scope row]

/-- The rows that are never updated are still there. -/
structure IngestGrowth (s t : IngestState ι) : Prop where
  jobs : ∀ k job, s.jobs.committed k = some job → t.jobs.committed k = some job
  records : ∀ scope record, s.records.committed scope = some record →
    t.records.committed scope = some record
  tasks : ∀ k task, s.tasks.committed k = some task → t.tasks.committed k = some task

theorem IngestState.Stored.mono {p : IdempotencyRecord → Prop} (h : s.Stored sub p)
    (growth : IngestGrowth s t) : t.Stored sub p := by
  obtain ⟨scope, record, hs, stored, hp⟩ := h
  exact ⟨scope, record, hs, growth.records scope record stored, hp⟩

theorem Answered.mono {response : JobResponse} (h : Answered s sub response)
    (growth : IngestGrowth s t) : Answered t sub response := by
  cases response with
  | accepted jobId => exact h
  | replayed jobId => exact IngestState.Stored.mono h growth
  | conflict => exact IngestState.Stored.mono h growth
  | failed => exact h

theorem Written.mono (h : Written s sub) (growth : IngestGrowth s t) : Written t sub :=
  ⟨growth.jobs _ _ h.job, h.tasks.mono growth.tasks,
    fun scope hs => growth.records _ _ (h.record scope hs)⟩

/-- Where a request can be that has not aborted. -/
def Unaborted (sub : Submission) (s : IngestState ι) : IngestPhase → Prop
  | .refused => s.Stored sub fun _ => True
  | .finished _ response => response ≠ .failed
  | _ => True

theorem Unaborted.mono (h : Unaborted sub s phase) (growth : IngestGrowth s t) :
    Unaborted sub t phase := by
  cases phase with
  | refused => exact IngestState.Stored.mono h growth
  | _ => exact h

variable [DecidableEq ι]

def RequestOk (sub : Submission) (s : IngestState ι) (r : ι) : IngestPhase → Prop
  | .ready | .refused => s.Quiet r
  | .jobInserted =>
    HoldsJob s sub r ∧ s.records.Quiet r ∧ s.domains.Quiet r ∧ s.details.Quiet r ∧ s.tasks.Quiet r
  | .replaying jobId => s.Quiet r ∧ Answered s sub (.replayed jobId)
  | .opened | .domainsRead _ | .domainsCreated _ | .domainsReactivated _ =>
    HoldsJob s sub r ∧ HoldsRecord s sub r
  | .tasksInserted => HoldsJob s sub r ∧ HoldsRecord s sub r ∧ sub.Ingested (s.tasks.held r)
  | .finished true response =>
    s.Quiet r ∧ Written s sub ∧ (response = .accepted sub.jobUuid ∨ response = .failed)
  | .finished false response => s.Quiet r ∧ Answered s sub response

/-- What a step of request `r` leaves as it was. -/
structure IngestFrame (r : ι) (s t : IngestState ι) : Prop where
  jobs : Store.Inserting r s.jobs t.jobs
  records : Store.Inserting r s.records t.records
  domains : Store.Step r s.domains t.domains
  details : Store.Step r s.details t.details
  tasks : Store.Inserting r s.tasks t.tasks
  phase : ∀ r', r' ≠ r → t.phase r' = s.phase r'

/-- All that a step of request `r` does. -/
structure IngestEffect (sub : Submission) (r : ι) (s t : IngestState ι) : Prop where
  frame : IngestFrame r s t
  own : RequestOk sub t r (t.phase r)
  commits : t.snapshot = s.snapshot ∧ (t.phase r).wrote = false ∨
    s.phase r = .tasksInserted ∧ (t.phase r).wrote = true

theorem move_phase_other (h : r' ≠ r) : (s.move r phase).phase r' = s.phase r' :=
  Function.update_of_ne h ..

theorem ok_move (h : RequestOk sub s r phase) :
    RequestOk sub (s.move r phase) r ((s.move r phase).phase r) := by
  rw [move_phase_self]
  cases phase with
  | finished wrote response =>
    cases wrote with
    | false => cases response <;> exact h
    | true =>
      obtain ⟨quiet, written, answer⟩ := h
      exact ⟨quiet, ⟨written.job, written.tasks, written.record⟩, answer⟩
  | _ => exact h

theorem unaborted_move (h : Unaborted sub s phase) :
    Unaborted sub (s.move r phase) ((s.move r phase).phase r) := by
  rw [move_phase_self]
  cases phase <;> exact h

theorem frame_move : IngestFrame r s (s.move r phase) :=
  ⟨.refl, .refl, .refl, .refl, .refl, fun _ h => move_phase_other h⟩

theorem frame_rollback : IngestFrame r s ((s.rollback r).move r phase) :=
  ⟨.rollback, .rollback, .rollback, .rollback, .rollback, fun _ h => move_phase_other h⟩

theorem frame_commit : IngestFrame r s ((s.commit r).move r phase) :=
  ⟨.commit, .commit, .commit, .commit, .commit, fun _ h => move_phase_other h⟩

theorem quiet_rollback : (s.rollback r).Quiet r :=
  ⟨Store.quiet_rollback, Store.quiet_rollback, Store.quiet_rollback, Store.quiet_rollback,
    Store.quiet_rollback⟩

theorem quiet_commit : (s.commit r).Quiet r :=
  ⟨Store.quiet_commit, Store.quiet_commit, Store.quiet_commit, Store.quiet_commit,
    Store.quiet_commit⟩

theorem IngestState.Quiet.snapshot_commit (h : s.Quiet r) : (s.commit r).snapshot = s.snapshot := by
  obtain ⟨hj, hr, hd, hdet, ht⟩ := h
  simp only [snapshot, commit, hj.commit_committed, hr.commit_committed, hd.commit_committed,
    hdet.commit_committed, ht.commit_committed]

theorem holdsJob_of_insert {jobs : Store ι JobId Job} (quiet : s.jobs.Quiet r)
    (h : s.jobs.insert r sub.jobUuid sub.jobRow = some jobs) :
    HoldsJob { s with jobs := jobs } sub r := by
  obtain ⟨_, rfl⟩ := Store.insert_eq_some_iff.mp h
  exact fun _ _ => quiet.hold_iff

theorem holdsRecord_of_insert {records : Store ι (String × String) IdempotencyRecord}
    {scope : String × String} (quiet : s.records.Quiet r) (hs : sub.scope = some scope)
    (h : s.records.insert r scope (sub.recordRow scope) = some records) :
    HoldsRecord { s with records := records } sub r := by
  obtain ⟨_, rfl⟩ := Store.insert_eq_some_iff.mp h
  intro scope' row
  refine quiet.hold_iff.trans ?_
  rw [hs]
  constructor
  · rintro ⟨rfl, rfl⟩
    exact ⟨rfl, rfl⟩
  · rintro ⟨same, rfl⟩
    cases Option.some.inj same
    exact ⟨rfl, rfl⟩

/-- The savepoint takes the job back. -/
theorem quiet_undo (h : RequestOk sub s r .jobInserted) :
    ({ s with jobs := s.jobs.undo sub.jobUuid } : IngestState ι).Quiet r := by
  obtain ⟨holds, rest⟩ := h
  exact ⟨Store.quiet_undo fun k row hl => ((holds k row).mp hl).1, rest⟩

theorem frame_undo (h : HoldsJob s sub r) :
    IngestFrame r s ({ s with jobs := s.jobs.undo sub.jobUuid }.move r phase) :=
  ⟨.undo ((h _ _).mpr ⟨rfl, rfl⟩), .refl, .refl, .refl, .refl, fun _ h => move_phase_other h⟩

theorem written_commit (h : RequestOk sub s r .tasksInserted) : Written (s.commit r) sub := by
  obtain ⟨job, record, tasks⟩ := h
  refine ⟨?_, ?_, ?_⟩
  · exact Store.view_of_held ((job _ _).mpr ⟨rfl, rfl⟩)
  · exact tasks.mono fun _ _ hk => Store.view_of_held_row hk
  · intro scope hs
    exact Store.view_of_held ((record _ _).mpr ⟨hs, rfl⟩)

theorem wrote_move (h : phase.wrote = false) : ((s.move r phase).phase r).wrote = false := by
  rw [move_phase_self]
  exact h

/-- The case analysis of a step, once for everything that follows. -/
theorem ingestNext_effect {sub : ι → Submission} {action : IngestAction}
    (ok : RequestOk (sub r) s r (s.phase r)) (h : ingestNext sub s (r, action) = some t) :
    IngestEffect (sub r) r s t := by
  unfold ingestNext at h
  dsimp only at h
  split at h
  next hp =>
    rw [hp] at ok
    obtain ⟨jobs, hj, rfl⟩ := Option.map_eq_some_iff.mp h
    refine ⟨⟨.insert hj, .refl, .refl, .refl, .refl, fun _ hne => move_phase_other hne⟩,
      ok_move ?_, Or.inl ⟨?_, wrote_move ?_⟩⟩
    · have holds := holdsJob_of_insert ok.1 hj
      cases hs : (sub r).scope with
      | none => exact ⟨holds, holdsRecord_of_plain ok.2.1 hs⟩
      | some scope => exact ⟨holds, ok.2⟩
    · simp only [IngestState.snapshot, IngestState.move, Store.insert_committed hj]
    · cases (sub r).scope <;> rfl
  next hp _ =>
    rw [hp] at ok
    cases Option.some.inj h
    exact ⟨frame_move, ok_move ok, Or.inl ⟨rfl, wrote_move rfl⟩⟩
  next hp _ =>
    rw [hp] at ok
    cases Option.some.inj h
    exact ⟨frame_undo ok.1, ok_move (quiet_undo ok), Or.inl ⟨rfl, wrote_move rfl⟩⟩
  next scope hp hs =>
    rw [hp] at ok
    split at h
    next =>
      split at h
      next records hr =>
        cases Option.some.inj h
        refine ⟨⟨.refl, .insert hr, .refl, .refl, .refl, fun _ hne => move_phase_other hne⟩,
          ok_move ⟨ok.1, holdsRecord_of_insert ok.2.1 hs hr⟩, Or.inl ⟨?_, wrote_move rfl⟩⟩
        simp only [IngestState.snapshot, IngestState.move, Store.insert_committed hr]
      next =>
        cases Option.some.inj h
        exact ⟨frame_undo ok.1, ok_move (quiet_undo ok), Or.inl ⟨rfl, wrote_move rfl⟩⟩
    next => cases h
  next scope hp hs =>
    rw [hp] at ok
    have seen : s.records.view r scope = s.records.committed scope :=
      Store.view_of_unheld (ok.2.1 scope)
    rw [seen] at h
    split at h
    next =>
      cases Option.some.inj h
      exact ⟨frame_rollback, ok_move ⟨quiet_rollback, trivial⟩, Or.inl ⟨rfl, wrote_move rfl⟩⟩
    next existing stored =>
      split at h
      next same =>
        cases Option.some.inj h
        exact ⟨frame_move, ok_move ⟨ok, scope, existing, hs, stored, same, rfl⟩, Or.inl ⟨rfl, wrote_move rfl⟩⟩
      next differs =>
        cases Option.some.inj h
        exact ⟨frame_rollback,
          ok_move ⟨quiet_rollback, scope, existing, hs, stored, differs⟩, Or.inl ⟨rfl, wrote_move rfl⟩⟩
  next hp =>
    rw [hp] at ok
    cases Option.some.inj h
    exact ⟨frame_move, ok_move ok, Or.inl ⟨rfl, wrote_move rfl⟩⟩
  next found hp =>
    rw [hp] at ok
    obtain ⟨domains, hd, rfl⟩ := Option.map_eq_some_iff.mp h
    refine ⟨⟨.refl, .refl, (Store.Inserting.insertAll hd).toStep, .refl, .refl,
      fun _ hne => move_phase_other hne⟩, ok_move ok, Or.inl ⟨?_, wrote_move rfl⟩⟩
    simp only [IngestState.snapshot, IngestState.move, Store.insertAll_committed hd]
  next known hp =>
    rw [hp] at ok
    split at h
    next free =>
      cases Option.some.inj h
      exact ⟨⟨.refl, .refl, .writeAll free.1, .deleteAll free.2, .refl,
        fun _ hne => move_phase_other hne⟩, ok_move ok, Or.inl ⟨rfl, wrote_move rfl⟩⟩
    next => cases h
  next known hp =>
    rw [hp] at ok
    obtain ⟨valid, hv, h⟩ := Option.bind_eq_some_iff.mp h
    obtain ⟨invalid, hi, h⟩ := Option.bind_eq_some_iff.mp h
    obtain ⟨tasks, ht, rfl⟩ := Option.map_eq_some_iff.mp h
    have built : (sub r).Ingested (tasks.held r) :=
      ingested_of_built hv hi fun task hmem => Store.insertAll_held ht hmem
    refine ⟨⟨.refl, .refl, .refl, .refl, .insertAll ht, fun _ hne => move_phase_other hne⟩,
      ok_move ⟨ok.1, ok.2, built⟩, Or.inl ⟨?_, wrote_move rfl⟩⟩
    simp only [IngestState.snapshot, IngestState.move, Store.insertAll_committed ht]
  next answered hp =>
    rw [hp] at ok
    cases Option.some.inj h
    refine ⟨frame_commit, ok_move ⟨quiet_commit, written_commit ok, ?_⟩,
      Or.inr ⟨hp, ?_⟩⟩
    · cases answered
      · exact Or.inr rfl
      · exact Or.inl rfl
    · rw [move_phase_self]
      rfl
  next jobId answered hp =>
    rw [hp] at ok
    cases Option.some.inj h
    have same := ok.1.snapshot_commit
    have records : (s.commit r).records.committed = s.records.committed :=
      ok.1.2.1.commit_committed
    refine ⟨frame_commit, ok_move ⟨quiet_commit, ?_⟩, Or.inl ⟨same, wrote_move rfl⟩⟩
    cases answered
    · trivial
    · show (s.commit r).Stored (sub r) _
      unfold IngestState.Stored
      rw [records]
      exact ok.2
  next => cases h
  next =>
    cases Option.some.inj h
    exact ⟨frame_rollback, ok_move ⟨quiet_rollback, trivial⟩, Or.inl ⟨rfl, wrote_move rfl⟩⟩
  next => cases h

theorem IngestEffect.job_appears (effect : IngestEffect sub r s t) (ok : RequestOk sub s r (s.phase r))
    {k : JobId} {job : Job} (hk : t.jobs.committed k = some job) :
    s.jobs.committed k = some job ∨ (t.phase r).wrote = true ∧ job = sub.jobRow := by
  rcases effect.commits with ⟨same, _⟩ | ⟨hp, hw⟩
  · have jobs : t.jobs.committed = s.jobs.committed := congrArg Prod.fst same
    rw [jobs] at hk
    exact Or.inl hk
  · rw [hp] at ok
    rcases effect.frame.jobs.appears hk with before | ⟨held, _⟩
    · exact Or.inl before
    · have row := ((ok.1 k _).mp (Store.held_eq_some_iff.mp held)).2
      exact Or.inr ⟨hw, Option.some.inj row⟩

theorem IngestEffect.record_appears (effect : IngestEffect sub r s t)
    (ok : RequestOk sub s r (s.phase r)) {scope : String × String} {record : IdempotencyRecord}
    (hk : t.records.committed scope = some record) :
    s.records.committed scope = some record ∨
      (t.phase r).wrote = true ∧ sub.scope = some scope ∧ record = sub.recordRow scope := by
  rcases effect.commits with ⟨same, _⟩ | ⟨hp, hw⟩
  · have records : t.records.committed = s.records.committed :=
      congrArg (fun tables => tables.2.1) same
    rw [records] at hk
    exact Or.inl hk
  · rw [hp] at ok
    rcases effect.frame.records.appears hk with before | ⟨held, _⟩
    · exact Or.inl before
    · obtain ⟨hs, row⟩ := (ok.2.1 scope _).mp (Store.held_eq_some_iff.mp held)
      exact Or.inr ⟨hw, hs, Option.some.inj row⟩

/-- A request does not disturb what another one relies on. -/
theorem ok_other (ok : RequestOk sub s r' phase) (frame : IngestFrame r s t) (hne : r' ≠ r)
    (growth : IngestGrowth s t) : RequestOk sub t r' phase := by
  have quiet : s.Quiet r' → t.Quiet r' := fun ⟨hj, hr, hd, hdet, ht⟩ =>
    ⟨frame.jobs.quiet hne hj, frame.records.quiet hne hr, frame.domains.quiet hne hd,
      frame.details.quiet hne hdet, frame.tasks.quiet hne ht⟩
  have job : HoldsJob s sub r' → HoldsJob t sub r' := fun h k row =>
    (frame.jobs.others k r' row hne).trans (h k row)
  have record : HoldsRecord s sub r' → HoldsRecord t sub r' := fun h scope row =>
    (frame.records.others scope r' row hne).trans (h scope row)
  cases phase with
  | ready => exact quiet ok
  | refused => exact quiet ok
  | jobInserted =>
    obtain ⟨hj, hr, hd, hdet, ht⟩ := ok
    exact ⟨job hj, frame.records.quiet hne hr, frame.domains.quiet hne hd,
      frame.details.quiet hne hdet, frame.tasks.quiet hne ht⟩
  | replaying jobId => exact ⟨quiet ok.1, Answered.mono ok.2 growth⟩
  | opened => exact ⟨job ok.1, record ok.2⟩
  | domainsRead found => exact ⟨job ok.1, record ok.2⟩
  | domainsCreated known => exact ⟨job ok.1, record ok.2⟩
  | domainsReactivated known => exact ⟨job ok.1, record ok.2⟩
  | tasksInserted =>
    refine ⟨job ok.1, record ok.2.1, ok.2.2.mono fun k task hk => ?_⟩
    rw [frame.tasks.held hne]
    exact hk
  | finished wrote response =>
    cases wrote with
    | false => exact ⟨quiet ok.1, ok.2.mono growth⟩
    | true => exact ⟨quiet ok.1, ok.2.1.mono growth, ok.2.2⟩

theorem written_of_wrote (ok : RequestOk sub s r phase) (h : phase.wrote = true) : Written s sub := by
  cases phase with
  | finished wrote response =>
    have hw : wrote = true := h
    subst hw
    exact ok.2.1
  | _ => cases h

end Requests

end DomainProcessing
