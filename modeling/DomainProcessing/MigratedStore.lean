import DomainProcessing.ForeignKeys
import DomainProcessing.Migrations

namespace DomainProcessing

open Tables Runs RelationalSchema

def TaskType.value : TaskType → String
  | .userRequest => "USER_REQUEST"
  | .refresh => "REFRESH"

def ErrorPayload.jsonb (e : ErrorPayload) : Jsonb :=
  .ofMembers [("code", .string e.code), ("message", .string e.message), ("retryable", .bool e.retryable)]

def jsonbStrings (items : List String) : Jsonb := .ofItems (items.map .string)

/-- A refresh task is created with `error_payload=None`, which the column stores as a JSON
`null`; a requested task is created without it. -/
def Task.storedPayload (t : Task) : Option Jsonb :=
  match t.errorPayload, t.type with
  | some e, _ => some e.jsonb
  | none, .refresh => some .null
  | none, .userRequest => none

def Job.row (job : Job) : Row :=
  .of [("id", some (.uuid job.id)), ("status", some (.label job.status.value)),
    ("created_at", some (.timestamp job.createdAt)), ("updated_at", some (.timestamp job.updatedAt))]

def Domain.row (d : Domain) : Row :=
  .of [("id", some (.uuid d.id)), ("normalized_domain", some (.text d.normalizedDomain)),
    ("is_active", some (.bool d.isActive)), ("deactivated_at", d.deactivatedAt.map .timestamp),
    ("created_at", some (.timestamp d.createdAt)), ("updated_at", some (.timestamp d.updatedAt))]

def Task.row (t : Task) : Row :=
  .of [("id", some (.uuid t.id)), ("job_id", t.jobId.map .uuid), ("domain_id", some (.uuid t.domainId)),
    ("type", some (.label t.type.value)), ("status", some (.label t.status.value)),
    ("attempts", some (.int t.attempts)), ("next_attempt_at", some (.timestamp t.nextAttemptAt)),
    ("lease_expires_at", t.leaseExpiresAt.map .timestamp),
    ("error_payload", t.storedPayload.map .json),
    ("created_at", some (.timestamp t.createdAt)), ("updated_at", some (.timestamp t.updatedAt))]

def DomainDetail.row (detail : DomainDetail) : Row :=
  .of [("domain_id", some (.uuid detail.domainId)),
    ("ip_addresses", some (.json (jsonbStrings detail.ipAddresses))),
    ("dns_records", some (.json (.ofMembers (detail.dnsRecords.map fun r => (r.1, jsonbStrings r.2))))),
    ("http_status", some (.int detail.httpStatus)), ("page_title", detail.pageTitle.map .text),
    ("response_time", some (.int detail.responseTime)),
    ("response_headers", some (.json (.ofMembers (detail.responseHeaders.map fun h => (h.1, .string h.2))))),
    ("fetched_at", some (.timestamp detail.fetchedAt)),
    ("next_refresh_at", some (.timestamp detail.nextRefreshAt)), ("version", some (.int detail.version))]

def IdempotencyRecord.row (r : IdempotencyRecord) : Row :=
  .of [("id", some (.uuid r.id)), ("client_id", some (.text r.clientId)),
    ("idempotency_key", some (.text r.idempotencyKey)), ("request_hash", some (.text r.requestHash)),
    ("job_id", some (.uuid r.jobId)), ("created_at", some (.timestamp r.createdAt))]

/-- The tables of the service's database. -/
def Db.contents (db : Db) : Contents := fun name =>
  if name = "job" then db.jobs.rows.map Job.row
  else if name = "domain" then db.domains.rows.map Domain.row
  else if name = "task" then db.tasks.rows.map Task.row
  else if name = "domain_detail" then db.details.rows.map DomainDetail.row
  else if name = "idempotency_record" then db.idempotencyRecords.rows.map IdempotencyRecord.row
  else []

section Columns

theorem fits_status (status : TaskStatus) (name : String) :
    (⟨name, .enum "task_status", false⟩ : Column).fits headSchema.types (some (.label status.value)) = true := by
  cases status <;> rfl

theorem fits_type (type : TaskType) (name : String) :
    (⟨name, .enum "task_type", false⟩ : Column).fits headSchema.types (some (.label type.value)) = true := by
  cases type <;> rfl

theorem fits_optional {α : Type*} {types : List (String × List String)} {c : Column} (f : α → Value)
    (o : Option α) (typed : ∀ a, (f a).hasType types c.type = true) (nullable : c.nullable = true) :
    c.fits types (o.map f) = true := by
  cases o with
  | none => exact nullable
  | some a => exact typed a

theorem job_fits (job : Job) : ∀ c ∈ jobTable.columns, c.fits headSchema.types (job.row c.name) = true := by
  have status := fits_status job.status "status"
  simp only [jobTable, List.forall_mem_cons]
  exact ⟨rfl, status, rfl, rfl, fun _ mem => absurd mem List.not_mem_nil⟩

theorem domain_fits (d : Domain) :
    ∀ c ∈ domainTable.columns, c.fits headSchema.types (d.row c.name) = true := by
  have deactivated := @fits_optional _ headSchema.types ⟨"deactivated_at", .timestamp, true⟩ .timestamp
    d.deactivatedAt (fun _ => rfl) rfl
  simp only [domainTable, List.forall_mem_cons]
  exact ⟨rfl, rfl, rfl, deactivated, rfl, rfl, fun _ mem => absurd mem List.not_mem_nil⟩

theorem task_fits (t : Task) : ∀ c ∈ taskTable.columns, c.fits headSchema.types (t.row c.name) = true := by
  have job := @fits_optional _ headSchema.types ⟨"job_id", .uuid, true⟩ .uuid t.jobId (fun _ => rfl) rfl
  have lease := @fits_optional _ headSchema.types ⟨"lease_expires_at", .timestamp, true⟩ .timestamp
    t.leaseExpiresAt (fun _ => rfl) rfl
  have error := @fits_optional _ headSchema.types ⟨"error_payload", .jsonb, true⟩ .json
    t.storedPayload (fun _ => rfl) rfl
  have type := fits_type t.type "type"
  have status := fits_status t.status "status"
  simp only [taskTable, List.forall_mem_cons]
  exact ⟨rfl, job, rfl, type, status, rfl, rfl, lease, error, rfl, rfl, fun _ mem => absurd mem List.not_mem_nil⟩

theorem detail_fits (detail : DomainDetail) :
    ∀ c ∈ domainDetailTable.columns, c.fits headSchema.types (detail.row c.name) = true := by
  have title := @fits_optional _ headSchema.types ⟨"page_title", .string, true⟩ .text
    detail.pageTitle (fun _ => rfl) rfl
  simp only [domainDetailTable, List.forall_mem_cons]
  exact ⟨rfl, rfl, rfl, rfl, title, rfl, rfl, rfl, rfl, rfl, fun _ mem => absurd mem List.not_mem_nil⟩

theorem record_fits (r : IdempotencyRecord) : ∀ c ∈ idempotencyRecordTable.columns,
    c.fits headSchema.types (r.row c.name) = true := by
  simp only [idempotencyRecordTable, List.forall_mem_cons]
  exact ⟨rfl, rfl, rfl, rfl, rfl, rfl, fun _ mem => absurd mem List.not_mem_nil⟩

end Columns

section Rows

variable {ρ κ : Type*} {rows : List ρ} {row : ρ → Row} {key : ρ → κ} {columns : List String}

theorem distinct_map (nodup : (rows.map key).Nodup)
    (same : ∀ r r', keyOf columns (row r) = keyOf columns (row r') → key r = key r') :
    Distinct columns (rows.map row) := by
  rw [List.Nodup, List.pairwise_map] at nodup
  refine List.pairwise_map.mpr (nodup.imp fun {r r'} apart equal => ?_)
  exact absurd (same r r' equal) apart

theorem uuid_injective : Function.Injective Value.uuid := fun _ _ => Value.uuid.inj

theorem text_injective : Function.Injective Value.text := fun _ _ => Value.text.inj

/-- A column that shows the key keeps it unique. -/
theorem distinct_column {column : String} (value : κ → Value) (injective : Function.Injective value)
    (nodup : (rows.map key).Nodup) (shown : ∀ r, row r column = some (value (key r))) :
    Distinct [column] (rows.map row) := by
  refine distinct_map nodup fun r r' same => ?_
  injection same with same
  rw [shown, shown] at same
  exact injective (Option.some.inj same)

theorem foreignKey_map {ρ' : Type*} {targets : List ρ'} {target : ρ' → Row} {fk : ForeignKey}
    (refers : ∀ r ∈ rows, row r fk.column = none ∨ ∃ r' ∈ targets, target r' fk.target = row r fk.column) :
    fk.Holds (rows.map row) (targets.map target) := by
  refine List.forall_mem_map.mpr fun r mem => (refers r mem).imp_right ?_
  rintro ⟨r', there, same⟩
  exact ⟨_, List.mem_map_of_mem there, same⟩

end Rows

/-- What the schema at the head asks of the service's database beyond the tables' own keys. -/
structure Db.Consistent (db : Db) : Prop where
  keys : db.ForeignKeys
  names : (db.domains.rows.map Domain.normalizedDomain).Nodup
  recordIds : (db.idempotencyRecords.rows.map IdempotencyRecord.id).Nodup

section Tables

variable {db : Db}

theorem job_holds (ranged : headSchema.InRange db.contents) :
    jobTable.Holds headSchema.types db.contents := by
  refine ⟨ranged.accepted (by decide) (List.forall_mem_map.mpr fun job _ => job_fits job), ?_, ?_, ?_⟩
  · exact @distinct_column _ _ _ Job.row Job.id "id" .uuid uuid_injective db.jobs.nodup fun _ => rfl
  · intro u mem
    cases mem
  · intro fk mem
    cases mem

theorem domain_holds (ranged : headSchema.InRange db.contents) :
    domainTable.Holds headSchema.types db.contents := by
  refine ⟨ranged.accepted (by decide) (List.forall_mem_map.mpr fun d _ => domain_fits d), ?_, ?_, ?_⟩
  · exact @distinct_column _ _ _ Domain.row Domain.id "id" .uuid uuid_injective db.domains.nodup fun _ => rfl
  · intro u mem
    cases mem
  · intro fk mem
    cases mem

theorem task_holds (ranged : headSchema.InRange db.contents) (keys : db.ForeignKeys) :
    taskTable.Holds headSchema.types db.contents := by
  refine ⟨ranged.accepted (by decide) (List.forall_mem_map.mpr fun t _ => task_fits t), ?_, ?_, ?_⟩
  · exact @distinct_column _ _ _ Task.row Task.id "id" .uuid uuid_injective db.tasks.nodup fun _ => rfl
  · intro u mem
    cases mem
  · have jobs : (⟨"job_id", "job", "id"⟩ : ForeignKey).Holds (db.tasks.rows.map Task.row)
        (db.jobs.rows.map Job.row) := by
      refine foreignKey_map fun t mem => ?_
      cases owner : t.jobId with
      | none => exact Or.inl (congrArg (Option.map Value.uuid) owner)
      | some jobId =>
        obtain ⟨job, stored, rfl⟩ := keys.taskJob t mem jobId owner
        exact Or.inr ⟨job, stored, (congrArg (Option.map Value.uuid) owner).symm⟩
    have domains : (⟨"domain_id", "domain", "id"⟩ : ForeignKey).Holds (db.tasks.rows.map Task.row)
        (db.domains.rows.map Domain.row) := by
      refine foreignKey_map fun t mem => ?_
      obtain ⟨d, stored, same⟩ := keys.taskDomain t mem
      exact Or.inr ⟨d, stored, congrArg (some ∘ Value.uuid) same⟩
    exact List.forall_mem_cons.mpr ⟨jobs, List.forall_mem_singleton.mpr domains⟩

theorem detail_holds (ranged : headSchema.InRange db.contents) (keys : db.ForeignKeys) :
    domainDetailTable.Holds headSchema.types db.contents := by
  refine ⟨ranged.accepted (by decide) (List.forall_mem_map.mpr fun detail _ => detail_fits detail), ?_, ?_, ?_⟩
  · exact @distinct_column _ _ _ DomainDetail.row DomainDetail.domainId "domain_id" .uuid uuid_injective
      db.details.nodup fun _ => rfl
  · intro u mem
    cases mem
  · have domains : (⟨"domain_id", "domain", "id"⟩ : ForeignKey).Holds (db.details.rows.map DomainDetail.row)
        (db.domains.rows.map Domain.row) := by
      refine foreignKey_map fun detail mem => ?_
      obtain ⟨d, stored, same⟩ := keys.detailDomain detail mem
      exact Or.inr ⟨d, stored, congrArg (some ∘ Value.uuid) same⟩
    exact List.forall_mem_singleton.mpr domains

theorem record_holds (ranged : headSchema.InRange db.contents) (keys : db.ForeignKeys)
    (ids : (db.idempotencyRecords.rows.map IdempotencyRecord.id).Nodup) :
    (idempotencyRecordTable.setNullable "job_id" false).Holds headSchema.types db.contents := by
  refine ⟨ranged.accepted (by decide) (List.forall_mem_map.mpr fun r _ => record_fits r), ?_, ?_, ?_⟩
  · exact @distinct_column _ _ _ IdempotencyRecord.row IdempotencyRecord.id "id" .uuid uuid_injective ids
      fun _ => rfl
  · have scopes : Distinct ["client_id", "idempotency_key"]
        (db.idempotencyRecords.rows.map IdempotencyRecord.row) := by
      refine @distinct_map _ _ db.idempotencyRecords.rows IdempotencyRecord.row IdempotencyRecord.scope _
        db.idempotencyRecords.nodup fun r r' same => ?_
      injection same with client rest
      injection client with client
      injection client with client
      injection rest with key rest
      injection key with key
      injection key with key
      exact Prod.ext client key
    exact List.forall_mem_singleton.mpr scopes
  · have jobs : (⟨"job_id", "job", "id"⟩ : ForeignKey).Holds
        (db.idempotencyRecords.rows.map IdempotencyRecord.row) (db.jobs.rows.map Job.row) := by
      refine foreignKey_map fun r mem => ?_
      obtain ⟨job, stored, same⟩ := keys.recordJob r mem
      exact Or.inr ⟨job, stored, congrArg (some ∘ Value.uuid) same⟩
    exact List.forall_mem_singleton.mpr jobs

theorem record_holds_nullable (ranged : headSchema.InRange db.contents) (keys : db.ForeignKeys)
    (ids : (db.idempotencyRecords.rows.map IdempotencyRecord.id).Nodup) (jobNullable : Bool) :
    (idempotencyRecordTable.setNullable "job_id" jobNullable).Holds headSchema.types db.contents := by
  have same : (idempotencyRecordTable.setNullable "job_id" false).setNullable "job_id" jobNullable =
      idempotencyRecordTable.setNullable "job_id" jobNullable := by
    cases jobNullable <;> rfl
  rw [← same]
  exact (record_holds ranged keys ids).setNullable fun _ => List.forall_mem_map.mpr fun _ _ => rfl

/-- Each revision has a place for every row of the service. -/
theorem Db.Consistent.conforms (consistent : db.Consistent) (ranged : headSchema.InRange db.contents)
    {later : List Index} (plain : ∀ i ∈ later, i.unique = false) (jobNullable : Bool) :
    (⟨schemaWith later jobNullable, db.contents⟩ : Database).Conforms := by
  obtain ⟨keys, names, ids⟩ := consistent
  refine ⟨?_, ?_, ?_⟩
  · have all : ∀ t ∈ (schemaWith later jobNullable).tables, t.Holds headSchema.types db.contents := by
      simp only [schemaWith, List.forall_mem_cons]
      exact ⟨job_holds ranged, domain_holds ranged, task_holds ranged keys, detail_holds ranged keys,
        record_holds_nullable ranged keys ids jobNullable, fun _ mem => absurd mem List.not_mem_nil⟩
    exact all
  · have unique : Distinct ["normalized_domain"] (db.domains.rows.map Domain.row) :=
      @distinct_column _ _ _ Domain.row Domain.normalizedDomain "normalized_domain" .text
        text_injective names fun _ => rfl
    have initial : ∀ i ∈ (schemaWith [] false).indexes, i.unique = true →
        i = ⟨"idx_domain_normalized", "domain", ["normalized_domain"], true⟩ := by decide
    intro i mem only
    rcases List.mem_append.mp mem with first | added
    · rw [initial i (List.mem_append_left _ first) only]
      exact unique
    · rw [plain i added] at only
      cases only
  · intro name outside
    have others : ∀ known ∈ ["job", "domain", "task", "domain_detail", "idempotency_record"], name ≠ known := by
      rintro known mem rfl
      exact outside mem
    simp only [List.forall_mem_cons] at others
    obtain ⟨job, domain, task, detail, record, -⟩ := others
    simp only [Db.contents, if_neg job, if_neg domain, if_neg task, if_neg detail, if_neg record]

theorem inRange_schemaWith {later : List Index} {jobNullable : Bool}
    (ranged : (schemaWith later jobNullable).InRange db.contents) : headSchema.InRange db.contents := by
  unfold Schema.InRange headSchema at *
  simp only [schemaWith, List.forall_mem_cons] at *
  obtain ⟨jobs, domains, tasks, details, records, -⟩ := ranged
  refine ⟨jobs, domains, tasks, details, fun row mem => ?_, fun _ mem => absurd mem List.not_mem_nil⟩
  have values := records row mem
  rw [forall_setNullable (p := fun name => ∀ v ∈ row name, v.inRange = true)] at values ⊢
  exact values

/-- The tables as `models.py` declares them, every column with `nullable=False`. -/
def modelsSchema : Schema := { headSchema with tables := headSchema.tables.map TableDef.required }

/-- No row has a `NULL` where the code writes one. -/
structure Db.Filled (db : Db) : Prop where
  domains : ∀ d ∈ db.domains.rows, d.deactivatedAt.isSome = true
  tasks : ∀ t ∈ db.tasks.rows,
    t.jobId.isSome = true ∧ t.leaseExpiresAt.isSome = true ∧ t.storedPayload.isSome = true
  details : ∀ detail ∈ db.details.rows, detail.pageTitle.isSome = true

theorem required_holds_iff_map {α : Type*} {t : TableDef} {rows : List α} {row : α → Row} {contents : Contents}
    (held : t.Holds headSchema.types contents) (shown : contents t.name = rows.map row) :
    t.required.Holds headSchema.types contents ↔
      ∀ r ∈ rows, ∀ c ∈ t.columns, (row r c.name).isSome = true := by
  rw [TableDef.required_holds_iff held, shown]
  exact List.forall_mem_map

theorem filled_domain (d : Domain) :
    (∀ c ∈ domainTable.columns, (d.row c.name).isSome = true) ↔ d.deactivatedAt.isSome = true := by
  have deactivated : (d.row "deactivated_at").isSome = d.deactivatedAt.isSome := Option.isSome_map
  simp only [domainTable, List.forall_mem_cons, deactivated]
  constructor
  · exact fun filled => filled.2.2.2.1
  · exact fun filled => ⟨rfl, rfl, rfl, filled, rfl, rfl, fun _ mem => absurd mem List.not_mem_nil⟩

theorem filled_task (t : Task) : (∀ c ∈ taskTable.columns, (t.row c.name).isSome = true) ↔
    t.jobId.isSome = true ∧ t.leaseExpiresAt.isSome = true ∧ t.storedPayload.isSome = true := by
  have job : (t.row "job_id").isSome = t.jobId.isSome := Option.isSome_map
  have lease : (t.row "lease_expires_at").isSome = t.leaseExpiresAt.isSome := Option.isSome_map
  have error : (t.row "error_payload").isSome = t.storedPayload.isSome := Option.isSome_map
  simp only [taskTable, List.forall_mem_cons, job, lease, error]
  constructor
  · exact fun filled => ⟨filled.2.1, filled.2.2.2.2.2.2.2.1, filled.2.2.2.2.2.2.2.2.1⟩
  · rintro ⟨job, lease, error⟩
    exact ⟨rfl, job, rfl, rfl, rfl, rfl, rfl, lease, error, rfl, rfl, fun _ mem => absurd mem List.not_mem_nil⟩

theorem filled_detail (detail : DomainDetail) :
    (∀ c ∈ domainDetailTable.columns, (detail.row c.name).isSome = true) ↔ detail.pageTitle.isSome = true := by
  have title : (detail.row "page_title").isSome = detail.pageTitle.isSome := Option.isSome_map
  simp only [domainDetailTable, List.forall_mem_cons, title]
  constructor
  · exact fun filled => filled.2.2.2.2.1
  · exact fun filled => ⟨rfl, rfl, rfl, rfl, filled, rfl, rfl, rfl, rfl, rfl,
      fun _ mem => absurd mem List.not_mem_nil⟩

theorem filled_job (job : Job) : ∀ c ∈ jobTable.columns, (job.row c.name).isSome = true := by
  simp only [jobTable, List.forall_mem_cons]
  exact ⟨rfl, rfl, rfl, rfl, fun _ mem => absurd mem List.not_mem_nil⟩

theorem filled_record (r : IdempotencyRecord) :
    ∀ c ∈ (idempotencyRecordTable.setNullable "job_id" false).columns, (r.row c.name).isSome = true := by
  have columns : (idempotencyRecordTable.setNullable "job_id" false).columns =
    idempotencyRecordTable.columns := by decide
  rw [columns]
  simp only [idempotencyRecordTable, List.forall_mem_cons]
  exact ⟨rfl, rfl, rfl, rfl, rfl, rfl, fun _ mem => absurd mem List.not_mem_nil⟩

/-- The schema of the models takes a database without any `NULL` and no other. -/
theorem Db.Consistent.models_iff (consistent : db.Consistent) :
    (⟨modelsSchema, db.contents⟩ : Database).Conforms ↔ headSchema.InRange db.contents ∧ db.Filled := by
  by_cases ranged : headSchema.InRange db.contents
  case neg =>
    refine iff_of_false (fun conforms => ranged ?_) fun both => ranged both.1
    have required : modelsSchema.InRange db.contents := conforms.inRange
    unfold Schema.InRange modelsSchema at *
    simp only [TableDef.required, List.forall_mem_map] at *
    exact required
  have head := @Db.Consistent.conforms _ consistent ranged [cursorIndex] (by decide) false
  have keys := consistent.keys
  have domains := @required_holds_iff_map _ _ db.domains.rows Domain.row _ (domain_holds ranged) rfl
  have tasks := @required_holds_iff_map _ _ db.tasks.rows Task.row _ (task_holds ranged keys) rfl
  have details := @required_holds_iff_map _ _ db.details.rows DomainDetail.row _ (detail_holds ranged keys) rfl
  have jobs := @required_holds_iff_map _ _ db.jobs.rows Job.row _ (job_holds ranged) rfl
  have records := @required_holds_iff_map _ _ db.idempotencyRecords.rows IdempotencyRecord.row _
    (record_holds ranged keys consistent.recordIds) rfl
  simp only [filled_domain, filled_task, filled_detail] at domains tasks details
  constructor
  · intro conforms
    have held : ∀ t ∈ headSchema.tables, t.required.Holds headSchema.types db.contents :=
      List.forall_mem_map.mp conforms.tables
    exact ⟨ranged, domains.mp (held _ (by decide)), tasks.mp (held _ (by decide)),
      details.mp (held _ (by decide))⟩
  · rintro ⟨-, filled⟩
    have held : ∀ t ∈ [jobTable, domainTable, taskTable, domainDetailTable,
        idempotencyRecordTable.setNullable "job_id" false], t.required.Holds headSchema.types db.contents := by
      simp only [List.forall_mem_cons]
      exact ⟨jobs.mpr fun job _ => filled_job job, domains.mpr filled.domains, tasks.mpr filled.tasks,
        details.mpr filled.details, records.mpr fun r _ => filled_record r,
        fun _ mem => absurd mem List.not_mem_nil⟩
    refine ⟨List.forall_mem_map.mpr held, head.indexes, fun name outside => head.absent name ?_⟩
    have names : modelsSchema.tables.map TableDef.name = headSchema.tables.map TableDef.name := by decide
    exact fun mem => outside (names ▸ mem)

end Tables

section System

variable {ω ι : Type*} {settings : AppSettings} {maxAttempts : Nat} {s s' : SystemState ω ι}
  {op : SystemOp ω ι} {trace : List (SystemState ω ι × SystemOp ω ι)}

/-- `uuid4` has not drawn the record's identifier before. -/
def FreshRecord (s : SystemState ω ι) (op : SystemOp ω ι) : Prop :=
  ∀ sub, op = .service (.createJob sub) →
    ∀ r ∈ s.service.db.idempotencyRecords.rows, r.id ≠ sub.recordUuid

theorem recordIds_append {records : List IdempotencyRecord} {sub : Submission} {scope : String × String}
    (ids : (records.map IdempotencyRecord.id).Nodup) (fresh : ∀ r ∈ records, r.id ≠ sub.recordUuid) :
    ((records ++ [sub.recordRow scope]).map IdempotencyRecord.id).Nodup := by
  rw [List.map_append]
  refine ids.append (List.nodup_singleton _) ?_
  intro id old new
  obtain ⟨r, mem, rfl⟩ := List.mem_map.mp old
  exact fresh r mem (List.mem_singleton.mp new)

/-- What a transaction of the service does to the domains and the records. -/
theorem ServiceChange.distinct {service : ServiceState} (h : ServiceChange maxAttempts s op service)
    (ok : DomainsOk s.service.db.domains.rows)
    (ids : (s.service.db.idempotencyRecords.rows.map IdempotencyRecord.id).Nodup) (fresh : FreshRecord s op) :
    DomainsOk service.db.domains.rows ∧
      (service.db.idempotencyRecords.rows.map IdempotencyRecord.id).Nodup := by
  have kept : ∀ {before : ServiceState} {o : ServiceOp}, (∀ sub, o ≠ .createJob sub) →
      DomainsOk before.db.domains.rows →
      (before.db.idempotencyRecords.rows.map IdempotencyRecord.id).Nodup →
      serviceNext maxAttempts before o = some service → DomainsOk service.db.domains.rows ∧
        (service.db.idempotencyRecords.rows.map IdempotencyRecord.id).Nodup := by
    intro before o other ok ids next
    refine ⟨ok.serviceNext next, ?_⟩
    rcases serviceNext_records next with same | ⟨sub, _, rfl, _⟩
    · rw [same]
      exact ids
    · exact absurd rfl (other sub)
  cases h with
  | same => exact ⟨ok, ids⟩
  | @external o _ _ next =>
    refine ⟨ok.serviceNext next, ?_⟩
    rcases serviceNext_records next with same | ⟨sub, scope, rfl, _, rows⟩
    · rw [same]
      exact ids
    · rw [rows]
      exact recordIds_append ids (fresh sub rfl)
  | reused _ next => exact kept (fun _ h => by cases h) ok ids next
  | @observed _ _ _ _ details _ _ _ next => exact @kept (s.writing details) _ (fun _ h => by cases h) ok ids next
  | scheduled _ next => exact kept (fun _ h => by cases h) ok ids next

variable [DecidableEq ω] [DecidableEq ι]

theorem consistent_run (run : SystemRun settings maxAttempts .init trace s)
    (fresh : ∀ p ∈ trace, FreshRecord p.1 p.2) : s.service.db.Consistent := by
  have both := Run.guarded (P := fun s : SystemState ω ι => DomainsOk s.service.db.domains.rows ∧
      (s.service.db.idempotencyRecords.rows.map IdempotencyRecord.id).Nodup) FreshRecord run
    ⟨⟨List.nodup_nil, fun _ mem => by cases mem⟩, List.nodup_nil⟩
    (fun before fresh next => (systemNext_effect next).service.distinct before.1 before.2 fresh) fresh
  exact ⟨(refers_run run).keys, both.1.names, both.2⟩

/-- At whatever revision the operator has the database, the only thing that keeps the tables
from taking a state of the service is a value that its column cannot hold, and the way to the
head leaves all the rows; the schema of the models takes such a state only when nothing in it
is `NULL`. -/
theorem service_fits_migrations (run : SystemRun settings maxAttempts .init trace s)
    (fresh : ∀ p ∈ trace, FreshRecord p.1 p.2) {m : Migrated}
    {commands : List (Migrated × MigrationOp)} (migrated : MigrationRun commands m) (made : m.version ≠ none) :
    ((∃ stored, migrationNext m (.write s.service.db.contents) = some stored) ↔
      headSchema.InRange s.service.db.contents) ∧
      (∀ stored, migrationNext m (.write s.service.db.contents) = some stored →
        stored.upgradeHead = some (Migrated.atHead s.service.db.contents)) ∧
      ((⟨modelsSchema, s.service.db.contents⟩ : Database).Conforms ↔
        headSchema.InRange s.service.db.contents ∧ s.service.db.Filled) := by
  have consistent := consistent_run run fresh
  have known := (Migrated.sound_run migrated).known
  have written : ∀ stored, migrationNext m (.write s.service.db.contents) = some stored →
      headSchema.InRange s.service.db.contents := by
    intro stored next
    obtain ⟨_, taken, -⟩ := Option.map_eq_some_iff.mp next
    have ranged := write_inRange taken
    cases known with
    | base => exact absurd rfl made
    | initial => exact inRange_schemaWith ranged
    | cursor => exact inRange_schemaWith ranged
    | head => exact ranged
  have takes : headSchema.InRange s.service.db.contents → migrationNext m (.write s.service.db.contents) =
      some { m with database := ⟨m.database.schema, s.service.db.contents⟩ } := by
    intro ranged
    have fits : (⟨m.database.schema, s.service.db.contents⟩ : Database).Conforms := by
      cases known with
      | base => exact absurd rfl made
      | initial => exact consistent.conforms ranged (fun _ mem => absurd mem List.not_mem_nil) _
      | cursor => exact @Db.Consistent.conforms _ consistent ranged [cursorIndex] (by decide) _
      | head => exact @Db.Consistent.conforms _ consistent ranged [cursorIndex] (by decide) false
    rw [migrationNext, write_of_conforms fits, Option.map_some]
  refine ⟨⟨fun taken => taken.elim written, fun ranged => ⟨_, takes ranged⟩⟩, ?_, consistent.models_iff⟩
  intro stored next
  have ranged := written stored next
  have head := @Db.Consistent.conforms _ consistent ranged [cursorIndex] (by decide) false
  have kept := (withoutLostRecords_eq_iff _).mpr (Migrated.lostRecord_atHead head)
  have upgraded := Migrated.upgradeHead_sound (Migrated.sound_run (.step migrated next))
  cases Option.some.inj ((takes ranged).symm.trans next)
  rw [kept] at upgraded
  exact upgraded

end System

instance (db : Db) : Decidable (headSchema.InRange db.contents) :=
  inferInstanceAs (Decidable (∀ t ∈ headSchema.tables, ∀ row ∈ db.contents t.name, ∀ c ∈ t.columns,
    ∀ v ∈ row c.name, v.inRange = true))

/-- A name that `normalize_domain` lets through and no text column takes. -/
example : ¬headSchema.InRange
    (Db.contents { Db.empty with domains := ⟨[⟨1, "a\x00.com", true, none, 0, 0⟩], by decide⟩ }) := by
  decide +kernel

/-- Right after the first job, with the last revision undone: the tables take the rows, those
of the models would not. -/
theorem service_fits_migrations_first :
    ∃ (s : SystemState Nat Nat) (m stored : Migrated),
      systemNext .defaults 3 .init (.service (.createJob oneTaskSubmission)) = some s ∧
      exec migrationNext .base [.upgradeHead, .downgradePrevious] = some m ∧
      migrationNext m (.write s.service.db.contents) = some stored ∧
      stored.upgradeHead = some (Migrated.atHead s.service.db.contents) ∧
      ¬(⟨modelsSchema, s.service.db.contents⟩ : Database).Conforms := by
  have enabled : (systemNext .defaults 3 (SystemState.init : SystemState Nat Nat)
      (.service (.createJob oneTaskSubmission))).map (fun s =>
        (decide (headSchema.InRange s.service.db.contents),
          s.service.db.tasks.rows.any fun t => t.leaseExpiresAt.isNone)) = some (true, true) := by decide +kernel
  obtain ⟨s, created, shown⟩ := Option.map_eq_some_iff.mp enabled
  injection shown with ranged unclaimed
  have undone : exec migrationNext .base [.upgradeHead, .downgradePrevious] =
      some (Migrated.atCursor true fun _ => []) := by
    rw [exec, migrationNext, Migrated.upgradeHead_base, Option.bind_some, exec, migrationNext,
      Migrated.downgradePrevious_atHead, Option.bind_some, exec]
  obtain ⟨taken, upgraded, models⟩ := service_fits_migrations (.step .start created) (by
    intro p mem
    cases List.mem_singleton.mp mem
    intro sub _ r there
    cases there) (exec_run undone) (Option.some_ne_none _)
  obtain ⟨stored, written⟩ := taken.mpr (of_decide_eq_true ranged)
  refine ⟨s, _, stored, created, undone, written, upgraded stored written, fun conforms => ?_⟩
  obtain ⟨t, mem, unleased⟩ := List.any_eq_true.mp unclaimed
  have leased := ((models.mp conforms).2.tasks t mem).2.1
  rw [Option.isNone_iff_eq_none.mp unleased] at leased
  cases leased

end DomainProcessing
