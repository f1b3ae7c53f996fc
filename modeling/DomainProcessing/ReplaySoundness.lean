import DomainProcessing.CanonicalPayload
import DomainProcessing.ClientScopes

namespace DomainProcessing

open Tables

theorem normalizeDomain_isValid_iff {text : PythonText} {domain : String} :
    (normalizeDomain text domain).isValid ↔
      validateDomainSyntax (normalizeDomain text domain).value.toList = none := by
  constructor
  · intro valid
    obtain ⟨v, syntaxOk, same⟩ := normalizeDomain_valid valid
    rw [same, String.toList_ofList]
    exact syntaxOk
  · unfold normalizeDomain
    dsimp only
    split
    next => simp [validateDomainSyntax]
    next =>
      split
      next => simp [validateDomainSyntax]
      next =>
        split
        next failed =>
          -- the codec takes every label of a hostname
          intro syntaxOk
          rw [String.toList_ofList] at syntaxOk
          obtain ⟨_, _, _, labels⟩ := validateDomainSyntax_eq_none_iff.mp syntaxOk
          rw [mapM_idnaLabel text labels] at failed
          cases failed
        next =>
          split
          next refused =>
            intro syntaxOk
            rw [String.toList_ofList, refused] at syntaxOk
            cases syntaxOk
          next => simp

/-- The values that are hostnames, and the names of the others. -/
def hostValues (values : List String) : List String :=
  values.filter fun v => decide (validateDomainSyntax v.toList = none)

def otherNames (values : List String) : List String :=
  (values.filter fun v => !decide (validateDomainSyntax v.toList = none)).map fun v =>
    if v = "" then "invalid" else v

section Values

variable {text : PythonText} {p q : List String}

theorem isValid_eq (text : PythonText) (d : String) : (normalizeDomain text d).isValid =
    decide (validateDomainSyntax (normalizeDomain text d).value.toList = none) := by
  rw [Bool.eq_iff_iff, normalizeDomain_isValid_iff, decide_eq_true_iff]

theorem validValues_eq :
    validValues (p.map (normalizeDomain text)) =
      hostValues (p.map fun d => (normalizeDomain text d).value) := by
  unfold validValues validResults hostValues
  rw [List.filter_map, List.filter_map, List.map_map]
  simp only [Function.comp_def, isValid_eq]

theorem invalidNames_eq :
    (invalidResults (p.map (normalizeDomain text))).map Submission.invalidName =
      otherNames (p.map fun d => (normalizeDomain text d).value) := by
  unfold invalidResults otherNames
  rw [List.filter_map, List.filter_map, List.map_map, List.map_map]
  simp only [Function.comp_def, isValid_eq]
  rfl

/-- Two payloads with one canonical text have the same entries, up to their order. -/
theorem values_perm (same : canonicalPayload text p = canonicalPayload text q) :
    (validValues (p.map (normalizeDomain text))).Perm (validValues (q.map (normalizeDomain text))) ∧
      ((invalidResults (p.map (normalizeDomain text))).map Submission.invalidName).Perm
        ((invalidResults (q.map (normalizeDomain text))).map Submission.invalidName) := by
  have values := canonicalPayload_eq_iff.mp same
  rw [validValues_eq, validValues_eq, invalidNames_eq, invalidNames_eq]
  exact ⟨values.filter _, (values.filter _).map _⟩

end Values

/-- The domain of a task, its status and its error code. -/
def taskOutcome (db : Db) (t : Task) : Option String × TaskStatus × Option String :=
  ((db.domains.get t.domainId).map Domain.normalizedDomain, t.status, t.errorPayload.map ErrorPayload.code)

/-- The tasks that were not there before. -/
def createdTasks (before after : Db) : List Task :=
  after.tasks.rows.filter fun t => (before.tasks.get t.id).isNone

def createdOutcomes (before after : Db) : List (Option String × TaskStatus × Option String) :=
  (createdTasks before after).map (taskOutcome after)

namespace Submission

def outcomes (sub : Submission) : List (Option String × TaskStatus × Option String) :=
  ((sub.finalValidDomains.map NormalizedDomain.value).map fun v => (some v, .pending, none)) ++
    (sub.invalidDomains.map invalidName).map fun name => (some name, .failed, some "VALIDATION_ERROR")

end Submission

section Outcomes

variable {sub : Submission} {db after : Db}

theorem createdTasks_self : createdTasks db db = [] := by
  unfold createdTasks
  rw [List.filter_eq_nil_iff]
  intro t ht
  have stored : db.tasks.get t.id = some t := Table.get_eq_some_iff.mpr ⟨ht, rfl⟩
  simp [stored]

theorem createdTasks_of_insert {new : List Task} (h : db.tasks.insert new = some after.tasks) :
    createdTasks db after = new := by
  have fresh : new.filter (fun t => (db.tasks.get t.id).isNone) = new := by
    rw [List.filter_eq_self]
    intro t ht
    rw [Table.insert_fresh h ht, Option.isNone_none]
  have old : createdTasks db db = [] := createdTasks_self
  unfold createdTasks at old ⊢
  rw [Table.insert_rows h, List.filter_append, old, fresh, List.nil_append]

/-- A task built for a name points to a domain of that name. -/
theorem name_of_found {domains : Table Domain.id} {name : String} {row : Domain}
    (found : findDomain domains.rows name = some row) :
    (domains.get row.id).map Domain.normalizedDomain = some name := by
  have stored : domains.get row.id = some row :=
    Table.get_eq_some_iff.mpr ⟨List.mem_of_find?_eq_some found, rfl⟩
  have named : row.normalizedDomain = name := by simpa using List.find?_some found
  rw [stored, Option.map_some, named]

theorem persistTasks_outcomes (h : persistTasks sub db = some after) :
    createdOutcomes db after = sub.outcomes := by
  obtain ⟨domains, valid, invalid, tasks, _, hv, hi, ht, rfl⟩ := persistTasks_cases h
  have pending := map_of_mapM (k := taskOutcome { reactivate sub { db with domains := domains } with tasks := tasks })
    (g := fun p : NormalizedDomain × Nat => (some p.1.value, .pending, none)) (fun p t built => by
      obtain ⟨row, found, rfl⟩ := Option.map_eq_some_iff.mp built
      exact congrArg (fun name => (name, _, _)) (name_of_found found)) hv
  have failed := map_of_mapM (k := taskOutcome { reactivate sub { db with domains := domains } with tasks := tasks })
    (g := fun p : NormalizedDomain × Nat =>
      (some (Submission.invalidName p.1), .failed, some "VALIDATION_ERROR")) (fun p t built => by
      obtain ⟨row, found, rfl⟩ := Option.map_eq_some_iff.mp built
      exact congrArg (fun name => (name, _, _)) (name_of_found found)) hi
  unfold createdOutcomes
  rw [createdTasks_of_insert ht, List.map_append, pending, failed]
  unfold Submission.outcomes
  rw [List.map_map, List.map_map]
  congr 1
  · conv_rhs => rw [← List.zipIdx_map_fst 0 sub.finalValidDomains, List.map_map]
    rfl
  · conv_rhs => rw [← List.zipIdx_map_fst sub.finalValidDomains.length sub.invalidDomains, List.map_map]
    rfl

/-- A database with the inactive domain `b.a`. -/
example : createdOutcomes mixedDb (postJobs .defaults asciiText id false mixedRequest mixedDraws mixedDb).1 =
    [(some "b.a", .pending, none), (some "c.d", .pending, none),
      (some "invalid", .failed, some "VALIDATION_ERROR"), (some "-", .failed, some "VALIDATION_ERROR")] := by
  decide +kernel

theorem createJob_outcomes {jobId : JobId} (h : createJob sub db = (after, .accepted jobId)) :
    createdOutcomes db after = sub.outcomes := by
  obtain ⟨_, opened, ho, hp⟩ := createJob_accepted h
  have outcomes := persistTasks_outcomes hp
  have tasks : opened.tasks = db.tasks := (openJob_spec ho).2.1
  unfold createdOutcomes createdTasks at outcomes ⊢
  rw [← outcomes, tasks]

end Outcomes

/-- The same request, with the same identifiers drawn, whose payload may be
ordered and spelled in another way. -/
structure SameEntries (sub sub' : Submission) : Prop where
  scope : sub.scope = sub'.scope
  hash : sub.requestHash = sub'.requestHash
  job : sub.jobRow = sub'.jobRow
  record : sub.recordRow = sub'.recordRow
  domainUuid : sub.domainUuid = sub'.domainUuid
  taskUuid : sub.taskUuid = sub'.taskUuid
  values : (sub.finalValidDomains.map NormalizedDomain.value).Perm
    (sub'.finalValidDomains.map NormalizedDomain.value)
  others : (sub.invalidDomains.map Submission.invalidName).Perm
    (sub'.invalidDomains.map Submission.invalidName)

namespace SameEntries

variable {sub sub' : Submission} {db after : Db}

theorem symm (h : SameEntries sub sub') : SameEntries sub' sub :=
  ⟨h.scope.symm, h.hash.symm, h.job.symm, h.record.symm, h.domainUuid.symm, h.taskUuid.symm,
    h.values.symm, h.others.symm⟩

theorem outcomes (h : SameEntries sub sub') : sub.outcomes.Perm sub'.outcomes := by
  unfold Submission.outcomes
  exact (h.values.map _).append (h.others.map _)

theorem names (h : SameEntries sub sub') : sub.allDomainStrs.Perm sub'.allDomainStrs :=
  (h.values.append h.others).dedup

theorem openJob_eq (h : SameEntries sub sub') (db : Db) :
    openJob sub db = openJob sub' db := by
  unfold openJob
  rw [h.scope, h.job, h.record]

theorem exists_createMissingDomains (h : SameEntries sub sub') {domains created : Table Domain.id}
    (hd : createMissingDomains sub domains = some created) :
    ∃ created', createMissingDomains sub' domains = some created' := by
  have distinct := Table.exists_insert_iff.mp ⟨created, hd⟩
  have ids : Domain.id ∘ sub.domainRow = Domain.id ∘ sub'.domainRow := h.domainUuid
  refine Table.exists_insert_iff.mpr ?_
  rw [List.map_append, List.map_map] at distinct ⊢
  rw [ids] at distinct
  have missing := (h.names.filter fun name => (findDomain domains.rows name).isNone).map
    (Domain.id ∘ sub'.domainRow)
  exact (missing.append_left _).nodup_iff.mp distinct

theorem exists_persistTasks (h : SameEntries sub sub') (hp : persistTasks sub db = some after) :
    ∃ after', persistTasks sub' db = some after' := by
  obtain ⟨domains, valid, invalid, tasks, hd, hv, hi, ht, _⟩ := persistTasks_cases hp
  obtain ⟨domains', hd'⟩ := h.exists_createMissingDomains hd
  obtain ⟨valid', invalid', hv', hi'⟩ := built_of_found (found_of_created hd')
  have lengths := h.values.length_eq
  have others := h.others.length_eq
  rw [List.length_map, List.length_map] at lengths others
  have ids : (valid' ++ invalid').map Task.id = (valid ++ invalid).map Task.id := by
    rw [taskIds_of_built hv' hi', taskIds_of_built hv hi, h.taskUuid, lengths, others]
  have inserted : ∃ tasks', db.tasks.insert (valid' ++ invalid') = some tasks' := by
    have distinct := Table.exists_insert_iff.mp ⟨tasks, ht⟩
    rw [Table.exists_insert_iff, List.map_append, ids, ← List.map_append]
    exact distinct
  obtain ⟨tasks', ht'⟩ := inserted
  exact ⟨_, persistTasks_of_inserts hd' hv' hi' ht'⟩

/-- They are accepted alike, and create the same tasks. -/
theorem createJob_same (h : SameEntries sub sub') (db : Db) :
    (createJob sub db).2 = (createJob sub' db).2 ∧
      (createdOutcomes db (createJob sub db).1).Perm
        (createdOutcomes db (createJob sub' db).1) := by
  have ids : sub.jobUuid = sub'.jobUuid := congrArg Job.id h.job
  have opens := h.openJob_eq db
  cases ho : openJob sub db with
  | none =>
    rw [ho] at opens
    have same : createJob sub db = createJob sub' db := by
      simp only [createJob, ho, ← opens, h.scope, h.hash]
    rw [same]
    exact ⟨rfl, List.Perm.refl _⟩
  | some opened =>
    rw [ho] at opens
    cases hp : persistTasks sub opened with
    | none =>
      have refused : persistTasks sub' opened = none := by
        rw [Option.eq_none_iff_forall_ne_some]
        intro after accepted
        obtain ⟨_, other⟩ := h.symm.exists_persistTasks accepted
        rw [hp] at other
        cases other
      have same : createJob sub db = createJob sub' db := by
        simp only [createJob, ho, ← opens, hp, refused]
      rw [same]
      exact ⟨rfl, List.Perm.refl _⟩
    | some after =>
      obtain ⟨after', hp'⟩ := h.exists_persistTasks hp
      have first : createJob sub db = (after, .accepted sub.jobUuid) := by
        simp only [createJob, ho, hp]
      have second : createJob sub' db = (after', .accepted sub'.jobUuid) := by
        simp only [createJob, ← opens, hp']
      have outcomes := h.outcomes
      rw [← createJob_outcomes first, ← createJob_outcomes second] at outcomes
      rw [first, second, ids]
      exact ⟨rfl, outcomes⟩

end SameEntries

/-- The same request with another payload. -/
def CreateJobRequest.withPayload (request : CreateJobRequest) (payload : List String) : CreateJobRequest :=
  { request with domains := payload }

section Requests

variable {text : PythonText} {sha256 : String → String} {request other : CreateJobRequest}
  {draws draws' : RequestDraws}

theorem entries_perm (same : canonicalPayload text request.domains = canonicalPayload text other.domains) :
    ((request.submission text sha256 draws).finalValidDomains.map NormalizedDomain.value).Perm
        ((other.submission text sha256 draws').finalValidDomains.map NormalizedDomain.value) ∧
      ((request.submission text sha256 draws).invalidDomains.map Submission.invalidName).Perm
        ((other.submission text sha256 draws').invalidDomains.map Submission.invalidName) := by
  obtain ⟨valid, invalid⟩ := values_perm same
  refine ⟨?_, invalid⟩
  rw [List.perm_ext_iff_of_nodup finalValues_nodup finalValues_nodup]
  intro v
  rw [mem_finalValues, mem_finalValues]
  exact valid.mem_iff

theorem outcomes_perm (same : canonicalPayload text request.domains = canonicalPayload text other.domains) :
    (request.submission text sha256 draws).outcomes.Perm (other.submission text sha256 draws').outcomes := by
  obtain ⟨valid, invalid⟩ := entries_perm same
  unfold Submission.outcomes
  exact (valid.map _).append (invalid.map _)

theorem sameEntries_of_canonical {p q : List String}
    (same : canonicalPayload text p = canonicalPayload text q) :
    SameEntries ((request.withPayload p).submission text sha256 draws)
      ((request.withPayload q).submission text sha256 draws) := by
  have entries : canonicalPayload text (request.withPayload p).domains =
      canonicalPayload text (request.withPayload q).domains := same
  obtain ⟨valid, invalid⟩ := entries_perm entries
  have hash : computeRequestHash text sha256 p = computeRequestHash text sha256 q := congrArg sha256 same
  exact {
    scope := rfl
    hash := hash
    job := rfl
    record := by
      funext scope
      exact congrArg (fun text => IdempotencyRecord.mk _ _ _ text _ _) hash
    domainUuid := rfl
    taskUuid := rfl
    values := valid
    others := invalid }

end Requests

end DomainProcessing
