import DomainProcessing.IngestionEffects
import DomainProcessing.Runs

namespace DomainProcessing

open Tables RowLocks Runs

section Tables

variable {ι κ ρ : Type*} [DecidableEq ι] [DecidableEq κ] {key : ρ → κ} {table table' : Table key}
variable {s : Store ι κ ρ} {i : ι} {new : List ρ}

/-- For a transaction that is alone, the inserts succeed as on the table. -/
theorem insertAll_of_insert (view : s.view i = table.get) (alone : ∀ k, s.free i k = true)
    (h : table.insert new = some table') :
    ∃ t, s.insertAll i key new = some t ∧ t.view i = table'.get ∧ ∀ k, t.free i k = true := by
  have keys := table'.nodup
  rw [Table.insert_rows h, List.map_append] at keys
  have unused : ∀ row ∈ new, s.view i (key row) = none := by
    intro row hr
    rw [view]
    exact Table.insert_fresh h hr
  obtain ⟨t, ht, free⟩ := Store.insertAll_of_alone alone keys.of_append_right unused
  refine ⟨t, ht, ?_, free⟩
  funext k
  rw [Store.insertAll_view ht, Table.get_insert h, view]

theorem insert_of_insert {row : ρ} (view : s.view i = table.get) (alone : ∀ k, s.free i k = true)
    (h : table.insert [row] = some table') :
    ∃ t, s.insert i (key row) row = some t ∧ t.view i = table'.get := by
  obtain ⟨t, ht, hv, _⟩ := insertAll_of_insert view alone h
  obtain ⟨m, hm, same⟩ := Option.bind_eq_some_iff.mp ht
  cases Option.some.inj same
  exact ⟨_, hm, hv⟩

end Tables

section Names

variable {sub : Submission} {rows : List Domain} {names : List String} {name : String}

theorem findDomain_name {d : Domain} (h : findDomain rows name = some d) :
    d.normalizedDomain = name := by
  simpa using List.find?_some h

theorem findDomain_filterMap (rows : List Domain) (names : List String) (name : String) :
    findDomain (names.filterMap (findDomain rows)) name =
      if name ∈ names then findDomain rows name else none := by
  induction names with
  | nil => rfl
  | cons first rest ih =>
    cases hf : findDomain rows first with
    | none =>
      rw [List.filterMap_cons_none hf, ih]
      by_cases hn : name = first
      · subst hn
        simp [hf]
      · simp [hn]
    | some d =>
      rw [List.filterMap_cons_some hf]
      have hd := findDomain_name hf
      by_cases hn : name = first
      · subst hn
        rw [if_pos List.mem_cons_self, hf]
        simp [findDomain, hd]
      · have hne : ¬d.normalizedDomain = name := fun h => hn (h.symm.trans hd)
        have skip : findDomain (d :: rest.filterMap (findDomain rows)) name =
            findDomain (rest.filterMap (findDomain rows)) name := by
          simp [findDomain, hne]
        rw [skip, ih]
        simp [hn]

/-- The names of the submission as the two versions of `create_job` see them. -/
theorem findDomain_known (hn : name ∈ sub.allDomainStrs) {missing : List Domain} :
    findDomain (sub.allDomainStrs.filterMap (findDomain rows) ++ missing) name =
      findDomain (rows ++ missing) name := by
  have found := findDomain_filterMap rows sub.allDomainStrs name
  rw [if_pos hn] at found
  unfold findDomain at found ⊢
  rw [List.find?_append, List.find?_append, found]

theorem findDomain_map {f : Domain → Domain} (keep : ∀ d, (f d).normalizedDomain = d.normalizedDomain) :
    findDomain (rows.map f) name = (findDomain rows name).map f := by
  have same : (fun d : Domain => decide (d.normalizedDomain = name)) ∘ f =
      fun d => decide (d.normalizedDomain = name) := by
    funext d
    show decide ((f d).normalizedDomain = name) = decide (d.normalizedDomain = name)
    rw [keep]
  unfold findDomain
  rw [List.find?_map, same]

theorem mapM_congr_mem {α β : Type*} {f g : α → Option β} {xs : List α} (h : ∀ x ∈ xs, f x = g x) :
    xs.mapM f = xs.mapM g := by
  induction xs with
  | nil => rfl
  | cons x xs ih =>
    obtain ⟨hx, hxs⟩ := List.forall_mem_cons.mp h
    rw [List.mapM_cons, List.mapM_cons, hx, ih hxs]

theorem mem_allDomainStrs_valid {d : NormalizedDomain} (h : d ∈ sub.finalValidDomains) :
    d.value ∈ sub.allDomainStrs := by
  simp only [Submission.allDomainStrs, List.mem_dedup, List.mem_append]
  exact Or.inl (List.mem_map_of_mem h)

theorem mem_allDomainStrs_invalid {d : NormalizedDomain} (h : d ∈ sub.invalidDomains) :
    Submission.invalidName d ∈ sub.allDomainStrs := by
  simp only [Submission.allDomainStrs, List.mem_dedup, List.mem_append]
  exact Or.inr (List.mem_map_of_mem h)

/-- Both versions create the same rows. -/
theorem missing_eq : (sub.allDomainStrs.filter fun name =>
      (findDomain (sub.allDomainStrs.filterMap (findDomain rows)) name).isNone) =
    sub.allDomainStrs.filter fun name => (findDomain rows name).isNone := by
  apply List.filter_congr
  intro name hn
  rw [findDomain_filterMap, if_pos hn]

variable {known known' : List Domain}

theorem tasks_congr (same : ∀ name ∈ sub.allDomainStrs,
      (findDomain known name).map Domain.id = (findDomain known' name).map Domain.id) :
    validTasks sub known = validTasks sub known' ∧ invalidTasks sub known = invalidTasks sub known' := by
  have build : ∀ {name} (f : DomainId → Task), name ∈ sub.allDomainStrs →
      (findDomain known name).map (fun row => f row.id) =
        (findDomain known' name).map (fun row => f row.id) := by
    intro name f hn
    have := congrArg (Option.map f) (same name hn)
    simpa [Option.map_map, Function.comp_def] using this
  constructor
  · apply mapM_congr_mem
    rintro ⟨d, i⟩ hp
    exact build (sub.pendingTask (sub.taskUuid i))
      (mem_allDomainStrs_valid (List.fst_mem_of_mem_zipIdx hp))
  · apply mapM_congr_mem
    rintro ⟨d, i⟩ hp
    exact build (fun id => sub.invalidTask (sub.taskUuid i) id d)
      (mem_allDomainStrs_invalid (List.fst_mem_of_mem_zipIdx hp))

theorem findDomain_reactivate (sub : Submission) (db : Db) (name : String) :
    (findDomain (reactivate sub db).domains.rows name).map Domain.id =
      (findDomain db.domains.rows name).map Domain.id := by
  let f : Domain → Domain := fun d =>
    if d.id ∈ reactivatedIds sub db.domains.rows then
      { d with isActive := true, deactivatedAt := none, updatedAt := sub.now }
    else d
  have keepName : ∀ d, (f d).normalizedDomain = d.normalizedDomain := by
    intro d
    simp only [f]
    split <;> rfl
  have keepId : Domain.id ∘ f = Domain.id := by
    funext d
    simp only [f, Function.comp_apply]
    split <;> rfl
  have mapped : (reactivate sub db).domains.rows = db.domains.rows.map f := rfl
  rw [mapped, findDomain_map keepName, Option.map_map, keepId]

/-- The tasks are built for the same domains. -/
theorem tasks_reactivated {db opened : Db} {domains : Table Domain.id}
    (same : opened.domains = db.domains)
    (hd : createMissingDomains sub opened.domains = some domains) :
    let missing := sub.allDomainStrs.filter fun name => (findDomain db.domains.rows name).isNone
    let known := sub.allDomainStrs.filterMap (findDomain db.domains.rows) ++
      missing.map sub.domainRow
    let rows := (reactivate sub { opened with domains := domains }).domains.rows
    validTasks sub known = validTasks sub rows ∧ invalidTasks sub known = invalidTasks sub rows := by
  intro missing known rows
  apply tasks_congr
  intro name hn
  have inserted : domains.rows = db.domains.rows ++ missing.map sub.domainRow := by
    rw [same] at hd
    exact Table.insert_rows hd
  rw [findDomain_known hn, ← inserted]
  exact (findDomain_reactivate sub { opened with domains := domains } name).symm

end Names

section Alone

variable {ι : Type*} [DecidableEq ι] {sub : ι → Submission} {r : ι} {s t : IngestState ι}
variable {db opened persisted : Db}

/-- The statements that open the job, when nothing refuses them. -/
def openingSteps (sub : Submission) (r : ι) : List (ι × IngestAction) :=
  (r, .insertJob) :: if sub.scope.isSome then [(r, .insertRecord)] else []

def persistingSteps (r : ι) : List (ι × IngestAction) :=
  [(r, .readDomains), (r, .createDomains), (r, .reactivateDomains), (r, .insertTasks),
    (r, .commit true)]

/-- The transaction reads the job and the record that `openJob` has written, and
the other tables are untouched. -/
structure AloneOpened (db opened : Db) (r : ι) (s : IngestState ι) : Prop where
  phase : s.phase r = .opened
  jobs : s.jobs.view r = opened.jobs.get
  records : s.records.view r = opened.idempotencyRecords.get
  domains : s.domains = .idle (findDomain db.domains.rows)
  details : s.details = .idle db.details.get
  tasks : s.tasks = .idle db.tasks.get

theorem next_insertJob (sub : ι → Submission) (r : ι) {jobs : Table Job.id}
    (h : db.jobs.insert [(sub r).jobRow] = some jobs) :
    ∃ store, (ingestInit db : IngestState ι).jobs.insert r (sub r).jobUuid (sub r).jobRow = some store ∧
      store.view r = jobs.get ∧
      ingestNext sub (ingestInit db) (r, .insertJob) =
        some ({ ingestInit db with jobs := store }.move r
          (if (sub r).scope.isSome then .jobInserted else .opened)) := by
  have before : (ingestInit db : IngestState ι).jobs.view r = db.jobs.get := rfl
  obtain ⟨store, inserted, hview⟩ := insert_of_insert before (fun _ => rfl) h
  have ready : (ingestInit db : IngestState ι).phase r = .ready := rfl
  refine ⟨store, inserted, hview, ?_⟩
  simp only [ingestNext, ready]
  exact Option.map_eq_some_iff.mpr ⟨store, inserted, rfl⟩

theorem exec_opening (h : openJob (sub r) db = some opened) :
    ∃ s, exec (ingestNext sub) (ingestInit db) (openingSteps (sub r) r) = some s ∧
      AloneOpened db opened r s := by
  obtain ⟨jobs, hj, h⟩ := Option.bind_eq_some_iff.mp h
  obtain ⟨store, _, hview, first⟩ := next_insertJob sub r hj
  cases hs : (sub r).scope with
  | none =>
    simp only [hs] at h first
    cases Option.some.inj h
    have steps : openingSteps (sub r) r = [(r, .insertJob)] := by
      simp only [openingSteps, hs, Option.isSome_none, Bool.false_eq_true, if_false]
    rw [steps]
    exact ⟨_, exec_cons first, ⟨move_phase_self, hview, rfl, rfl, rfl, rfl⟩⟩
  | some scope =>
    simp only [hs] at h first
    obtain ⟨records, hr, h⟩ := Option.bind_eq_some_iff.mp h
    cases Option.some.inj h
    have before : (ingestInit db : IngestState ι).records.view r = db.idempotencyRecords.get := rfl
    obtain ⟨store', hstore', hview'⟩ := insert_of_insert before (fun _ => rfl) hr
    have inserted : (ingestInit db : IngestState ι).records.insert r scope ((sub r).recordRow scope) =
      some store' := hstore'
    have second : ingestNext sub ({ ingestInit db with jobs := store }.move r .jobInserted)
        (r, .insertRecord) =
        some ({ { ingestInit db with jobs := store }.move r .jobInserted with
          records := store' }.move r .opened) := by
      have free : (ingestInit db : IngestState ι).records.free r scope = true := rfl
      simp only [ingestNext, move_phase_self, hs]
      simp only [IngestState.move, free, inserted, if_true]
    have steps : openingSteps (sub r) r = [(r, .insertJob), (r, .insertRecord)] := by
      simp only [openingSteps, hs, Option.isSome_some, if_true]
    rw [steps]
    exact ⟨_, (exec_cons first).trans (exec_cons second),
      ⟨move_phase_self, hview, hview', rfl, rfl, rfl⟩⟩

theorem exec_persisting (alone : AloneOpened db opened r s)
    (same : opened.domains = db.domains ∧ opened.tasks = db.tasks)
    (h : persistTasks (sub r) opened = some persisted) :
    ∃ t, exec (ingestNext sub) s (persistingSteps r) = some t ∧
      (t.phase r).response = some (.accepted (sub r).jobUuid) ∧
      t.jobs.committed = persisted.jobs.get ∧
      t.records.committed = persisted.idempotencyRecords.get ∧
      t.tasks.committed = persisted.tasks.get := by
  obtain ⟨domains, valid, invalid, tasks, hd, hv, hi, ht, rfl⟩ := persistTasks_cases h
  have built := tasks_reactivated same.1 hd
  let missing := (sub r).allDomainStrs.filter fun name => (findDomain db.domains.rows name).isNone
  let found := (sub r).allDomainStrs.filterMap (findDomain db.domains.rows)
  let new := missing.map (sub r).domainRow
  let s₁ := s.move r (.domainsRead found)
  have hread : ingestNext sub s (r, .readDomains) = some s₁ := by
    simp only [ingestNext, alone.phase, alone.domains, s₁, found]
    rfl
  have unused : ∀ row ∈ new, s.domains.view r row.normalizedDomain = none := by
    intro row hr
    obtain ⟨name, hn, rfl⟩ := List.mem_map.mp hr
    have absent := (List.mem_filter.mp hn).2
    rw [alone.domains]
    exact Option.isNone_iff_eq_none.mp absent
  have distinct : (new.map Domain.normalizedDomain).Nodup := by
    have names : new.map Domain.normalizedDomain = missing := by
      simp [new, Function.comp_def, Submission.domainRow]
    rw [names]
    exact (List.nodup_dedup _).filter _
  obtain ⟨store, hstore, free⟩ := Store.insertAll_of_alone
    (fun k => by rw [alone.domains]; rfl) distinct unused
  let s₂ := { s₁ with domains := store }.move r (.domainsCreated (found ++ new))
  have hcreate : ingestNext sub s₁ (r, .createDomains) = some s₂ := by
    have reached : s₁.phase r = .domainsRead found := move_phase_self
    have names : ((sub r).allDomainStrs.filter fun name => (findDomain found name).isNone) = missing :=
      missing_eq
    simp only [ingestNext, reached, names]
    exact Option.map_eq_some_iff.mpr ⟨store, hstore, rfl⟩
  let s₃ := { s₂ with
    domains := s₂.domains.writeAll r (reactivatedNames (sub r) (found ++ new)) fun d =>
      { d with isActive := true, deactivatedAt := none, updatedAt := (sub r).now }
    details := s₂.details.deleteAll r (reactivatedIds (sub r) (found ++ new)) }.move r
      (.domainsReactivated (found ++ new))
  have hreactivate : ingestNext sub s₂ (r, .reactivateDomains) = some s₃ := by
    have unlocked : (∀ name ∈ reactivatedNames (sub r) (found ++ new), s₂.domains.free r name = true) ∧
        ∀ id ∈ reactivatedIds (sub r) (found ++ new), s₂.details.free r id = true := by
      refine ⟨fun name _ => free name, fun id _ => ?_⟩
      show s.details.free r id = true
      rw [alone.details]
      rfl
    have reached : s₂.phase r = .domainsCreated (found ++ new) := move_phase_self
    simp only [ingestNext, reached, if_pos unlocked, s₃]
  have tasksView : s₃.tasks.view r = db.tasks.get := by
    show s.tasks.view r = db.tasks.get
    rw [alone.tasks]
    rfl
  have tasksFree : ∀ k, s₃.tasks.free r k = true := by
    intro k
    show s.tasks.free r k = true
    rw [alone.tasks]
    rfl
  have hinsert : db.tasks.insert (valid ++ invalid) = some tasks := by
    rw [← same.2]
    exact ht
  obtain ⟨store', hstore', view', _⟩ := insertAll_of_insert tasksView tasksFree hinsert
  let s₄ := { s₃ with tasks := store' }.move r .tasksInserted
  have htasks : ingestNext sub s₃ (r, .insertTasks) = some s₄ := by
    have reached : s₃.phase r = .domainsReactivated (found ++ new) := move_phase_self
    have hvalid : validTasks (sub r) (found ++ new) = some valid := built.1.trans hv
    have hinvalid : invalidTasks (sub r) (found ++ new) = some invalid := built.2.trans hi
    simp only [ingestNext, reached, hvalid, hinvalid, Option.bind_some, hstore', Option.map_some, s₄]
  let s₅ := (s₄.commit r).move r (.finished true (.accepted (sub r).jobUuid))
  have hcommit : ingestNext sub s₄ (r, .commit true) = some s₅ := by
    have reached : s₄.phase r = .tasksInserted := move_phase_self
    simp only [ingestNext, reached, if_true, s₅]
  have run : exec (ingestNext sub) s (persistingSteps r) = some s₅ :=
    (exec_cons hread).trans ((exec_cons hcreate).trans ((exec_cons hreactivate).trans
      ((exec_cons htasks).trans (exec_cons hcommit))))
  refine ⟨s₅, run, ?_, alone.jobs, alone.records, view'⟩
  have reached : s₅.phase r = .finished true (.accepted (sub r).jobUuid) := move_phase_self
  rw [reached]
  rfl

/-- A request that meets nobody does what `create_job` does as one transaction. -/
theorem serial_accepted {after : Db} {jobId : JobId}
    (h : createJob (sub r) db = (after, .accepted jobId)) :
    ∃ t, exec (ingestNext sub) (ingestInit db) (openingSteps (sub r) r ++ persistingSteps r) = some t ∧
      (t.phase r).response = some (.accepted jobId) ∧ t.jobs.committed = after.jobs.get ∧
      t.records.committed = after.idempotencyRecords.get ∧ t.tasks.committed = after.tasks.get := by
  obtain ⟨rfl, opened, ho, hp⟩ := createJob_accepted h
  obtain ⟨s, hopen, alone⟩ := exec_opening ho
  have same : opened.domains = db.domains ∧ opened.tasks = db.tasks :=
    ⟨openJob_domains ho, (openJob_spec ho).2.1⟩
  obtain ⟨t, hpersist, rest⟩ := exec_persisting alone same hp
  exact ⟨t, (exec_append hopen).trans hpersist, rest⟩

/-- With a committed record it reads the record and answers from it. -/
theorem serial_refused {scope : String × String} {record : IdempotencyRecord}
    (hs : (sub r).scope = some scope) (stored : db.idempotencyRecords.get scope = some record)
    (fresh : db.jobs.get (sub r).jobUuid = none) :
    ∃ t, exec (ingestNext sub) (ingestInit db)
        ([(r, .insertJob), (r, .insertRecord), (r, .readWinner)] ++
          if record.requestHash = (sub r).requestHash then [(r, .commit true)] else []) = some t ∧
      (t.phase r).response = some (createJob (sub r) db).2 ∧
      t.snapshot = (ingestInit db : IngestState ι).snapshot := by
  have refused : openJob (sub r) db = none := by
    cases ho : openJob (sub r) db with
    | none => rfl
    | some opened =>
      have unused := (openJob_spec ho).2.2
      rw [hs] at unused
      cases unused.symm.trans stored
  have unused : (db.jobs.rows ++ [(sub r).jobRow]).map Job.id |>.Nodup := by
    rw [List.map_append]
    refine List.nodup_append.mpr ⟨db.jobs.nodup, List.nodup_singleton _, ?_⟩
    intro k hk k' hk' same
    have taken : k = (sub r).jobUuid := same.trans (List.mem_singleton.mp hk')
    rw [taken] at hk
    exact Table.get_eq_none_iff.mp fresh hk
  obtain ⟨store, hstore, _, first⟩ := next_insertJob sub r (dif_pos unused)
  simp only [hs, Option.isSome_some, if_true] at first
  let s₁ : IngestState ι := { ingestInit db with jobs := store }.move r .jobInserted
  let s₂ := { s₁ with jobs := s₁.jobs.undo (sub r).jobUuid }.move r .refused
  have taken : (ingestInit db : IngestState ι).records.insert r scope ((sub r).recordRow scope) = none := by
    have seen : (ingestInit db : IngestState ι).records.view r scope = some record := stored
    simp [Store.insert, seen]
  have second : ingestNext sub s₁ (r, .insertRecord) = some s₂ := by
    have reached : s₁.phase r = .jobInserted := move_phase_self
    have free : s₁.records.free r scope = true := rfl
    have waits : s₁.records.insert r scope ((sub r).recordRow scope) = none := taken
    simp only [ingestNext, reached, hs, free, waits, if_true, s₂]
  have reached : s₂.phase r = .refused := move_phase_self
  have seen : s₂.records.view r scope = some record := stored
  have kept : store.committed = db.jobs.get := Store.insert_committed hstore
  have same : s₂.snapshot = (ingestInit db : IngestState ι).snapshot := by
    show (store.committed, _) = _
    rw [kept]
    rfl
  have quiet : s₂.Quiet r := by
    have start : (ingestInit db : IngestState ι).Quiet r :=
      ⟨Store.quiet_idle, Store.quiet_idle, Store.quiet_idle, Store.quiet_idle, Store.quiet_idle⟩
    have holds : HoldsJob s₁ (sub r) r := holdsJob_of_insert start.1 hstore
    exact quiet_undo ⟨holds, start.2⟩
  by_cases hash : record.requestHash = (sub r).requestHash
  · let s₃ := s₂.move r (.replaying record.jobId)
    have third : ingestNext sub s₂ (r, .readWinner) = some s₃ := by
      simp only [ingestNext, reached, hs, seen, if_pos hash, s₃]
    let s₄ := (s₃.commit r).move r (.finished false (.replayed record.jobId))
    have fourth : ingestNext sub s₃ (r, .commit true) = some s₄ := by
      have replaying : s₃.phase r = .replaying record.jobId := move_phase_self
      simp only [ingestNext, replaying, if_true, s₄]
    rw [if_pos hash]
    refine ⟨s₄, (exec_cons first).trans ((exec_cons second).trans ((exec_cons third).trans
      (exec_cons fourth))), ?_, ?_⟩
    · have finished : s₄.phase r = .finished false (.replayed record.jobId) := move_phase_self
      rw [finished]
      simp only [createJob, refused, hs, Option.bind_some, stored, if_pos hash]
      rfl
    · have unchanged : s₄.snapshot = s₃.snapshot := IngestState.Quiet.snapshot_commit quiet
      exact unchanged.trans same
  · let s₃ := (s₂.rollback r).move r (.finished false .conflict)
    have third : ingestNext sub s₂ (r, .readWinner) = some s₃ := by
      simp only [ingestNext, reached, hs, seen, if_neg hash, s₃]
    rw [if_neg hash]
    refine ⟨s₃, (exec_cons first).trans ((exec_cons second).trans (exec_cons third)), ?_, same⟩
    have finished : s₃.phase r = .finished false .conflict := move_phase_self
    rw [finished]
    simp only [createJob, refused, hs, Option.bind_some, stored, if_neg hash]
    rfl

end Alone

end DomainProcessing
