import DomainProcessing.Models
import Mathlib.Data.List.Dedup
import Mathlib.Data.List.Forall2

namespace DomainProcessing

open Tables

structure NormalizedDomain where
  value : String
  isValid : Bool
  error : Option String
  deriving DecidableEq, Repr

/-- `create_job` as it enters its `try` block: what it has computed by then and
the identifiers it draws from `uuid4`. -/
structure Submission where
  effectiveClientId : String
  idempotencyKey : Option String
  requestHash : String
  finalValidDomains : List NormalizedDomain
  invalidDomains : List NormalizedDomain
  now : Instant
  jobUuid : JobId
  recordUuid : Nat
  domainUuid : String → DomainId
  taskUuid : Nat → TaskId

inductive JobResponse
  | accepted (jobId : JobId)
  | replayed (jobId : JobId)
  | conflict
  | failed
  deriving DecidableEq, Repr

/-- A submission without an idempotency key. -/
def plainSubmission (jobUuid : JobId) (valid invalid : List NormalizedDomain) : Submission :=
  { effectiveClientId := "req-1", idempotencyKey := none, requestHash := "",
    finalValidDomains := valid, invalidDomains := invalid, now := 0, jobUuid := jobUuid,
    recordUuid := jobUuid, domainUuid := String.length, taskUuid := fun n => n + 1 }

namespace Submission

/-- `if idempotency_key:`, so an empty header is no key. -/
def scope (sub : Submission) : Option (String × String) :=
  match sub.idempotencyKey with
  | none => none
  | some key => if key = "" then none else some (sub.effectiveClientId, key)

def jobRow (sub : Submission) : Job := ⟨sub.jobUuid, .pending, sub.now, sub.now⟩

def recordRow (sub : Submission) (scope : String × String) : IdempotencyRecord :=
  ⟨sub.recordUuid, scope.1, scope.2, sub.requestHash, sub.jobUuid, sub.now⟩

def domainRow (sub : Submission) (name : String) : Domain :=
  ⟨sub.domainUuid name, name, true, none, sub.now, sub.now⟩

def pendingTask (sub : Submission) (id : TaskId) (domainId : DomainId) : Task :=
  { id := id, jobId := some sub.jobUuid, domainId := domainId, type := .userRequest,
    status := .pending, attempts := 0, nextAttemptAt := sub.now, leaseExpiresAt := none,
    errorPayload := none, createdAt := sub.now, updatedAt := sub.now }

/-- `norm_domain.error or "Domain validation failed"` -/
def validationMessage (d : NormalizedDomain) : String :=
  match d.error with
  | none => "Domain validation failed"
  | some e => if e = "" then "Domain validation failed" else e

def invalidTask (sub : Submission) (id : TaskId) (domainId : DomainId) (d : NormalizedDomain) :
    Task :=
  { sub.pendingTask id domainId with
    status := .failed
    errorPayload := some ⟨"VALIDATION_ERROR", validationMessage d, false⟩ }

/-- `norm_d.value if norm_d.value else "invalid"` -/
def invalidName (d : NormalizedDomain) : String := if d.value = "" then "invalid" else d.value

def allDomainStrs (sub : Submission) : List String :=
  (sub.finalValidDomains.map NormalizedDomain.value ++
    sub.invalidDomains.map invalidName).dedup

end Submission

def findDomain (domains : List Domain) (name : String) : Option Domain :=
  domains.find? (fun d => d.normalizedDomain = name)

/-- The bulk lookup and creation of the submitted names. -/
def createMissingDomains (sub : Submission) (domains : Table Domain.id) :
    Option (Table Domain.id) :=
  let missing := sub.allDomainStrs.filter (fun name => (findDomain domains.rows name).isNone)
  domains.insert (missing.map sub.domainRow)

def reactivatedIds (sub : Submission) (domains : List Domain) : List DomainId :=
  sub.finalValidDomains.filterMap fun d =>
    ((findDomain domains d.value).filter (fun row => !row.isActive)).map Domain.id

def reactivate (sub : Submission) (db : Db) : Db :=
  let ids := reactivatedIds sub db.domains.rows
  { db with
    domains := db.domains.update
      (fun d => if d.id ∈ ids then
          { d with isActive := true, deactivatedAt := none, updatedAt := sub.now }
        else d)
      (fun d => by split <;> rfl)
    details := db.details.delete (fun detail => decide (detail.domainId ∈ ids)) }

def validTasks (sub : Submission) (domains : List Domain) : Option (List Task) :=
  sub.finalValidDomains.zipIdx.mapM fun (d, i) =>
    (findDomain domains d.value).map fun row => sub.pendingTask (sub.taskUuid i) row.id

def invalidTasks (sub : Submission) (domains : List Domain) : Option (List Task) :=
  (sub.invalidDomains.zipIdx sub.finalValidDomains.length).mapM fun (d, i) =>
    (findDomain domains (Submission.invalidName d)).map fun row =>
      sub.invalidTask (sub.taskUuid i) row.id d

/-- The inserts of the savepoint, or of the job alone when there is no key. -/
def openJob (sub : Submission) (db : Db) : Option Db := do
  let jobs ← db.jobs.insert [sub.jobRow]
  match sub.scope with
  | none => pure { db with jobs := jobs }
  | some scope =>
    let records ← db.idempotencyRecords.insert [sub.recordRow scope]
    pure { db with jobs := jobs, idempotencyRecords := records }

/-- Domains, reactivation and tasks; `none` when the transaction rolls back. -/
def persistTasks (sub : Submission) (db : Db) : Option Db := do
  let domains ← createMissingDomains sub db.domains
  let db := reactivate sub { db with domains := domains }
  let valid ← validTasks sub db.domains.rows
  let invalid ← invalidTasks sub db.domains.rows
  let tasks ← db.tasks.insert (valid ++ invalid)
  pure { db with tasks := tasks }

/-- `create_job` as one transaction. -/
def createJob (sub : Submission) (db : Db) : Db × JobResponse :=
  match openJob sub db with
  | some opened =>
    match persistTasks sub opened with
    | some persisted => (persisted, .accepted sub.jobUuid)
    | none => (db, .failed)
  | none =>
    match sub.scope.bind db.idempotencyRecords.get with
    | none => (db, .failed)
    | some existing =>
      if existing.requestHash = sub.requestHash then (db, .replayed existing.jobId)
      else (db, .conflict)

/-- What the ingestion of a submission adds to the task table. -/
structure Submission.NewTasks (sub : Submission) (new : List Task) : Prop where
  job : ∀ t ∈ new, t.jobId = some sub.jobUuid
  fresh : ∀ t ∈ new, t.attempts = 0 ∧ t.leaseExpiresAt = none ∧ t.nextAttemptAt = sub.now
  shape : ∀ t ∈ new, t.status = .pending ∨
    t.status = .failed ∧ ∃ message, t.errorPayload = some ⟨"VALIDATION_ERROR", message, false⟩
  openTask : sub.finalValidDomains ≠ [] → ∃ t ∈ new, t.status = .pending

theorem forall₂_of_mapM {α β : Type*} {f : α → Option β} {xs : List α} {ys : List β}
    (h : xs.mapM f = some ys) : List.Forall₂ (fun x y => f x = some y) xs ys := by
  induction xs generalizing ys with
  | nil =>
    cases Option.some.inj h
    exact List.Forall₂.nil
  | cons x xs ih =>
    rw [List.mapM_cons] at h
    obtain ⟨y, hy, h⟩ := Option.bind_eq_some_iff.mp h
    obtain ⟨rest, hr, h⟩ := Option.bind_eq_some_iff.mp h
    cases Option.some.inj h
    exact List.Forall₂.cons hy (ih hr)

theorem map_of_mapM {α β γ : Type*} {f : α → Option β} {g : α → γ} {k : β → γ} {xs : List α} {ys : List β}
    (keep : ∀ x y, f x = some y → k y = g x) (h : xs.mapM f = some ys) : ys.map k = xs.map g := by
  have built := forall₂_of_mapM h
  clear h
  induction built with
  | nil => rfl
  | @cons x y xs ys hxy _ ih => rw [List.map_cons, List.map_cons, ih, keep x y hxy]

theorem exists_source_of_mapM {α β : Type*} {f : α → Option β} {xs : List α} {ys : List β}
    (h : xs.mapM f = some ys) {y : β} (hy : y ∈ ys) : ∃ x ∈ xs, f x = some y := by
  have hall := forall₂_of_mapM h
  clear h
  induction hall with
  | nil => simp at hy
  | cons hxy _ ih =>
    rcases List.mem_cons.mp hy with rfl | hy
    · exact ⟨_, List.mem_cons_self, hxy⟩
    · obtain ⟨x, hx, he⟩ := ih hy
      exact ⟨x, List.mem_cons_of_mem _ hx, he⟩

theorem exists_image_of_mapM {α β : Type*} {f : α → Option β} {xs : List α} {ys : List β}
    (h : xs.mapM f = some ys) {x : α} (hx : x ∈ xs) : ∃ y ∈ ys, f x = some y := by
  have hall := forall₂_of_mapM h
  clear h
  induction hall with
  | nil => cases hx
  | cons hxy _ ih =>
    rcases List.mem_cons.mp hx with rfl | hx
    · exact ⟨_, List.mem_cons_self, hxy⟩
    · obtain ⟨y, hy, he⟩ := ih hx
      exact ⟨y, List.mem_cons_of_mem _ hy, he⟩

theorem validTasks_shape {sub : Submission} {domains : List Domain} {tasks : List Task}
    (h : validTasks sub domains = some tasks) {t : Task} (ht : t ∈ tasks) :
    ∃ id domainId, t = sub.pendingTask id domainId := by
  obtain ⟨⟨d, i⟩, _, he⟩ := exists_source_of_mapM h ht
  obtain ⟨row, _, eq⟩ := Option.map_eq_some_iff.mp he
  exact ⟨_, _, eq.symm⟩

theorem invalidTasks_shape {sub : Submission} {domains : List Domain} {tasks : List Task}
    (h : invalidTasks sub domains = some tasks) {t : Task} (ht : t ∈ tasks) :
    ∃ id domainId d, t = sub.invalidTask id domainId d := by
  obtain ⟨⟨d, i⟩, _, he⟩ := exists_source_of_mapM h ht
  obtain ⟨row, _, eq⟩ := Option.map_eq_some_iff.mp he
  exact ⟨_, _, _, eq.symm⟩

theorem newTasks_of_built {sub : Submission} {domains : List Domain} {valid invalid : List Task}
    (hv : validTasks sub domains = some valid) (hi : invalidTasks sub domains = some invalid) :
    sub.NewTasks (valid ++ invalid) := by
  have built : ∀ t ∈ valid ++ invalid, (∃ id domainId, t = sub.pendingTask id domainId) ∨
      ∃ id domainId d, t = sub.invalidTask id domainId d := by
    intro t ht
    exact (List.mem_append.mp ht).imp (validTasks_shape hv) (invalidTasks_shape hi)
  refine ⟨?_, ?_, ?_, ?_⟩
  · intro t ht
    rcases built t ht with ⟨_, _, rfl⟩ | ⟨_, _, _, rfl⟩ <;> rfl
  · intro t ht
    rcases built t ht with ⟨_, _, rfl⟩ | ⟨_, _, _, rfl⟩ <;> exact ⟨rfl, rfl, rfl⟩
  · intro t ht
    rcases built t ht with ⟨_, _, rfl⟩ | ⟨_, _, d, rfl⟩
    · exact Or.inl rfl
    · exact Or.inr ⟨rfl, _, rfl⟩
  · intro hne
    have hlen := (forall₂_of_mapM hv).length_eq
    have hpos : 0 < valid.length := by
      have := List.length_pos_iff.mpr hne
      simpa [← hlen] using this
    obtain ⟨t, ht⟩ := List.exists_mem_of_length_pos hpos
    obtain ⟨_, _, rfl⟩ := validTasks_shape hv ht
    exact ⟨_, List.mem_append_left _ ht, rfl⟩

/-- The statements of the savepoint, all of which have succeeded. -/
theorem openJob_cases {sub : Submission} {db after : Db} (h : openJob sub db = some after) :
    ∃ jobs records, db.jobs.insert [sub.jobRow] = some jobs ∧
      after = { db with jobs := jobs, idempotencyRecords := records } ∧
      (sub.scope = none ∧ records = db.idempotencyRecords ∨
        ∃ scope, sub.scope = some scope ∧
          db.idempotencyRecords.insert [sub.recordRow scope] = some records) := by
  obtain ⟨jobs, hj, h⟩ := Option.bind_eq_some_iff.mp h
  cases hs : sub.scope with
  | none =>
    simp only [hs] at h
    exact ⟨jobs, _, hj, (Option.some.inj h).symm, Or.inl ⟨rfl, rfl⟩⟩
  | some scope =>
    simp only [hs] at h
    obtain ⟨records, hr, h⟩ := Option.bind_eq_some_iff.mp h
    exact ⟨jobs, records, hj, (Option.some.inj h).symm, Or.inr ⟨scope, rfl, hr⟩⟩

/-- The statements after the savepoint, all of which have succeeded. -/
theorem persistTasks_cases {sub : Submission} {db after : Db} (h : persistTasks sub db = some after) :
    ∃ domains valid invalid tasks, createMissingDomains sub db.domains = some domains ∧
      validTasks sub (reactivate sub { db with domains := domains }).domains.rows = some valid ∧
      invalidTasks sub (reactivate sub { db with domains := domains }).domains.rows = some invalid ∧
      db.tasks.insert (valid ++ invalid) = some tasks ∧
      after = { reactivate sub { db with domains := domains } with tasks := tasks } := by
  obtain ⟨domains, hd, h⟩ := Option.bind_eq_some_iff.mp h
  obtain ⟨valid, hv, h⟩ := Option.bind_eq_some_iff.mp h
  obtain ⟨invalid, hi, h⟩ := Option.bind_eq_some_iff.mp h
  obtain ⟨tasks, ht, h⟩ := Option.bind_eq_some_iff.mp h
  exact ⟨domains, valid, invalid, tasks, hd, hv, hi, ht, (Option.some.inj h).symm⟩

theorem persistTasks_of_inserts {sub : Submission} {db : Db} {domains : Table Domain.id}
    {valid invalid : List Task} {tasks : TaskTable}
    (created : createMissingDomains sub db.domains = some domains)
    (hv : validTasks sub (reactivate sub { db with domains := domains }).domains.rows = some valid)
    (hi : invalidTasks sub (reactivate sub { db with domains := domains }).domains.rows = some invalid)
    (inserted : db.tasks.insert (valid ++ invalid) = some tasks) :
    persistTasks sub db = some { reactivate sub { db with domains := domains } with tasks := tasks } := by
  refine Option.bind_eq_some_iff.mpr ⟨domains, created, ?_⟩
  refine Option.bind_eq_some_iff.mpr ⟨valid, hv, ?_⟩
  refine Option.bind_eq_some_iff.mpr ⟨invalid, hi, ?_⟩
  exact Option.bind_eq_some_iff.mpr ⟨tasks, inserted, rfl⟩

/-- Either nothing is committed, or both parts have succeeded. -/
theorem createJob_committed (sub : Submission) (db : Db) :
    ((createJob sub db).1 = db ∧ ∀ jobId, (createJob sub db).2 ≠ .accepted jobId) ∨
      ∃ opened, openJob sub db = some opened ∧
        persistTasks sub opened = some (createJob sub db).1 ∧
        (createJob sub db).2 = .accepted sub.jobUuid := by
  cases ho : openJob sub db with
  | none =>
    left
    simp only [createJob, ho]
    split
    · simp
    · split <;> simp
  | some opened =>
    cases hp : persistTasks sub opened with
    | none =>
      left
      simp [createJob, ho, hp]
    | some persisted =>
      have result : createJob sub db = (persisted, .accepted sub.jobUuid) := by
        simp only [createJob, ho, hp]
      rw [result]
      exact Or.inr ⟨opened, rfl, hp, rfl⟩

theorem createJob_accepted {sub : Submission} {db after : Db} {jobId : JobId}
    (h : createJob sub db = (after, .accepted jobId)) :
    jobId = sub.jobUuid ∧ ∃ opened, openJob sub db = some opened ∧
      persistTasks sub opened = some after := by
  rcases createJob_committed sub db with ⟨_, refused⟩ | ⟨opened, ho, hp, accepted⟩
  · exact absurd (congrArg Prod.snd h) (refused jobId)
  · rw [h] at hp accepted
    injection accepted with same
    exact ⟨same, opened, ho, hp⟩

theorem persistTasks_spec {sub : Submission} {db after : Db} (h : persistTasks sub db = some after) :
    after.jobs = db.jobs ∧ after.idempotencyRecords = db.idempotencyRecords ∧
      ∃ new, sub.NewTasks new ∧ db.tasks.insert new = some after.tasks := by
  obtain ⟨_, _, _, _, _, hv, hi, ht, rfl⟩ := persistTasks_cases h
  exact ⟨rfl, rfl, _, newTasks_of_built hv hi, ht⟩

theorem openJob_spec {sub : Submission} {db after : Db} (h : openJob sub db = some after) :
    db.jobs.insert [sub.jobRow] = some after.jobs ∧ after.tasks = db.tasks ∧
      sub.scope.bind db.idempotencyRecords.get = none := by
  obtain ⟨jobs, records, hj, rfl, ⟨hs, _⟩ | ⟨scope, hs, hr⟩⟩ := openJob_cases h
  · rw [hs]
    exact ⟨hj, rfl, rfl⟩
  · rw [hs]
    have free := Table.insert_fresh hr (List.mem_singleton_self _)
    exact ⟨hj, rfl, free⟩

theorem openJob_domains {sub : Submission} {db after : Db} (h : openJob sub db = some after) :
    after.domains = db.domains := by
  obtain ⟨_, _, _, rfl, _⟩ := openJob_cases h
  rfl

theorem openJob_details {sub : Submission} {db after : Db} (h : openJob sub db = some after) :
    after.details = db.details := by
  obtain ⟨_, _, _, rfl, _⟩ := openJob_cases h
  rfl

theorem persistTasks_details {sub : Submission} {db after : Db}
    (h : persistTasks sub db = some after) :
    ∃ ids : List DomainId,
      after.details = db.details.delete fun detail => decide (detail.domainId ∈ ids) := by
  obtain ⟨_, _, _, _, _, _, _, _, rfl⟩ := persistTasks_cases h
  exact ⟨_, rfl⟩

/-- Either nothing changes, or the new job arrives with all of its tasks. -/
theorem createJob_cases (sub : Submission) (db : Db) :
    (createJob sub db).1 = db ∨
      ∃ new, sub.NewTasks new ∧ sub.scope.bind db.idempotencyRecords.get = none ∧
        (createJob sub db).2 = .accepted sub.jobUuid ∧
        db.jobs.insert [sub.jobRow] = some (createJob sub db).1.jobs ∧
        db.tasks.insert new = some (createJob sub db).1.tasks := by
  rcases createJob_committed sub db with ⟨same, _⟩ | ⟨opened, ho, hp, accepted⟩
  · exact Or.inl same
  · obtain ⟨hjobs, htasks, unused⟩ := openJob_spec ho
    obtain ⟨sameJobs, _, new, hnew, hins⟩ := persistTasks_spec hp
    rw [htasks] at hins
    rw [← sameJobs] at hjobs
    exact Or.inr ⟨new, hnew, unused, accepted, hjobs, hins⟩

theorem inactive_of_persistTasks {sub : Submission} {db after : Db}
    (h : persistTasks sub db = some after) {d : Domain} (hd : d ∈ after.domains.rows)
    (inactive : d.isActive = false) :
    ∃ old ∈ db.domains.rows, old.id = d.id ∧ old.isActive = false := by
  obtain ⟨domains, _, _, _, hdomains, _, _, _, rfl⟩ := persistTasks_cases h
  obtain ⟨row, hrow, rfl⟩ := List.mem_map.mp hd
  split at inactive
  next => cases inactive
  next hkept =>
    rw [if_neg hkept]
    rw [Table.insert_rows hdomains] at hrow
    rcases List.mem_append.mp hrow with hold | hnew
    · exact ⟨row, hold, rfl, inactive⟩
    · obtain ⟨name, _, rfl⟩ := List.mem_map.mp hnew
      cases inactive

/-- Ingestion deactivates no domain. -/
theorem inactive_of_createJob {sub : Submission} {db : Db} {d : Domain}
    (hd : d ∈ (createJob sub db).1.domains.rows) (inactive : d.isActive = false) :
    ∃ old ∈ db.domains.rows, old.id = d.id ∧ old.isActive = false := by
  rcases createJob_committed sub db with ⟨same, _⟩ | ⟨opened, ho, hp, _⟩
  · exact ⟨d, same ▸ hd, rfl, inactive⟩
  · rw [← openJob_domains ho]
    exact inactive_of_persistTasks hp hd inactive

/-- Ingestion leaves a domain's detail alone or deletes it. -/
theorem createJob_detail (sub : Submission) (db : Db) (domainId : DomainId) :
    (createJob sub db).1.details.get domainId = db.details.get domainId ∨
      (createJob sub db).1.details.get domainId = none := by
  rcases createJob_committed sub db with ⟨same, _⟩ | ⟨opened, ho, hp, _⟩
  · exact Or.inl (by rw [same])
  · obtain ⟨ids, cleared⟩ := persistTasks_details hp
    rw [cleared, Table.get_delete opened.details (fun k => decide (k ∈ ids)), openJob_details ho]
    split
    · exact Or.inr rfl
    · exact Or.inl rfl

/-- What an accepted submission adds. -/
theorem accepted_spec {sub : Submission} {before after : Db} {jobId : JobId}
    (h : createJob sub before = (after, .accepted jobId)) :
    (∃ domains, createMissingDomains sub before.domains = some domains ∧
      ∀ d ∈ after.domains.rows, ∃ row ∈ domains.rows, row.id = d.id) ∧
    ∃ known valid invalid, validTasks sub known = some valid ∧ invalidTasks sub known = some invalid ∧
      after.tasks.rows = before.tasks.rows ++ (valid ++ invalid) := by
  obtain ⟨_, opened, ho, hp⟩ := createJob_accepted h
  obtain ⟨domains, valid, invalid, tasks, hd, hv, hi, ht, rfl⟩ := persistTasks_cases hp
  rw [openJob_domains ho] at hd
  rw [(openJob_spec ho).2.1] at ht
  refine ⟨⟨domains, hd, ?_⟩, _, valid, invalid, hv, hi, Table.insert_rows ht⟩
  intro d hd
  obtain ⟨row, hrow, rfl⟩ := List.mem_map.mp hd
  exact ⟨row, hrow, by split <;> rfl⟩

end DomainProcessing
