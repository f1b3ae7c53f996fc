import DomainProcessing.RelationalSchema
import DomainProcessing.Runs

namespace DomainProcessing

open RelationalSchema Runs

/-- A module of `alembic/versions`. -/
structure Revision where
  revision : String
  downRevision : Option String
  upgrade : List Statement
  downgrade : List Statement

def taskStatusLabels : List String := ["PENDING", "PROCESSING", "COMPLETED", "FAILED"]

def taskTypeLabels : List String := ["USER_REQUEST", "REFRESH"]

def jobTable : TableDef where
  name := "job"
  columns := [⟨"id", .uuid, false⟩, ⟨"status", .enum "task_status", false⟩,
    ⟨"created_at", .timestamp, false⟩, ⟨"updated_at", .timestamp, false⟩]
  primaryKey := ["id"]
  foreignKeys := []
  uniques := []

def domainTable : TableDef where
  name := "domain"
  columns := [⟨"id", .uuid, false⟩, ⟨"normalized_domain", .string, false⟩, ⟨"is_active", .boolean, false⟩,
    ⟨"deactivated_at", .timestamp, true⟩, ⟨"created_at", .timestamp, false⟩, ⟨"updated_at", .timestamp, false⟩]
  primaryKey := ["id"]
  foreignKeys := []
  uniques := []

def taskTable : TableDef where
  name := "task"
  columns := [⟨"id", .uuid, false⟩, ⟨"job_id", .uuid, true⟩, ⟨"domain_id", .uuid, false⟩,
    ⟨"type", .enum "task_type", false⟩, ⟨"status", .enum "task_status", false⟩, ⟨"attempts", .integer, false⟩,
    ⟨"next_attempt_at", .timestamp, false⟩, ⟨"lease_expires_at", .timestamp, true⟩,
    ⟨"error_payload", .jsonb, true⟩, ⟨"created_at", .timestamp, false⟩, ⟨"updated_at", .timestamp, false⟩]
  primaryKey := ["id"]
  foreignKeys := [⟨"job_id", "job", "id"⟩, ⟨"domain_id", "domain", "id"⟩]
  uniques := []

def domainDetailTable : TableDef where
  name := "domain_detail"
  columns := [⟨"domain_id", .uuid, false⟩, ⟨"ip_addresses", .jsonb, false⟩, ⟨"dns_records", .jsonb, false⟩,
    ⟨"http_status", .integer, true⟩, ⟨"page_title", .string, true⟩, ⟨"response_time", .integer, true⟩,
    ⟨"response_headers", .jsonb, false⟩, ⟨"fetched_at", .timestamp, false⟩,
    ⟨"next_refresh_at", .timestamp, false⟩, ⟨"version", .integer, false⟩]
  primaryKey := ["domain_id"]
  foreignKeys := [⟨"domain_id", "domain", "id"⟩]
  uniques := []

def idempotencyRecordTable : TableDef where
  name := "idempotency_record"
  columns := [⟨"id", .uuid, false⟩, ⟨"client_id", .string, false⟩, ⟨"idempotency_key", .string, false⟩,
    ⟨"request_hash", .string, false⟩, ⟨"job_id", .uuid, false⟩, ⟨"created_at", .timestamp, false⟩]
  primaryKey := ["id"]
  foreignKeys := [⟨"job_id", "job", "id"⟩]
  uniques := [⟨"uq_idempotency_record_client_id_idempotency_key", ["client_id", "idempotency_key"]⟩]

/-- `20260822_0001_initial_schema` -/
def initialSchema : Revision where
  revision := "20260822_0001"
  downRevision := none
  upgrade := [.createType "task_status" taskStatusLabels, .createType "task_type" taskTypeLabels,
    .createTable jobTable, .createTable domainTable,
    .createIndex ⟨"idx_domain_normalized", "domain", ["normalized_domain"], true⟩,
    .createTable taskTable,
    .createIndex ⟨"idx_tasks_claim", "task", ["status", "next_attempt_at", "type"], false⟩,
    .createIndex ⟨"idx_tasks_lease", "task", ["status", "lease_expires_at"], false⟩,
    .createIndex ⟨"idx_tasks_job_id", "task", ["job_id"], false⟩,
    .createTable domainDetailTable,
    .createIndex ⟨"idx_domain_detail_refresh", "domain_detail", ["next_refresh_at"], false⟩,
    .createTable idempotencyRecordTable]
  downgrade := [.dropTable "idempotency_record", .dropIndex "idx_domain_detail_refresh",
    .dropTable "domain_detail", .dropIndex "idx_tasks_job_id", .dropIndex "idx_tasks_lease",
    .dropIndex "idx_tasks_claim", .dropTable "task", .dropIndex "idx_domain_normalized",
    .dropTable "domain", .dropTable "job", .dropType "task_type", .dropType "task_status"]

/-- `20260823_0001_add_idx_tasks_cursor_index` -/
def addIdxTasksCursor : Revision where
  revision := "20260823_0001"
  downRevision := some "20260822_0001"
  upgrade := [.createIndex ⟨"idx_tasks_cursor", "task", ["job_id", "created_at", "id"], false⟩]
  downgrade := [.dropIndex "idx_tasks_cursor"]

/-- `20260824_0002_restore_idempotency_job_id_non_nullable` -/
def restoreIdempotencyJobId : Revision where
  revision := "20260824_0002"
  downRevision := some "20260823_0001"
  upgrade := [.deleteWhereNull "idempotency_record" "job_id",
    .setNullable "idempotency_record" "job_id" false]
  downgrade := [.setNullable "idempotency_record" "job_id" true]

/-- The chain of the revisions, the base first. -/
def versions : List Revision := [initialSchema, addIdxTasksCursor, restoreIdempotencyJobId]

/-- A database with the row of its `alembic_version`. -/
structure Migrated where
  database : Database
  version : Option String

namespace Migrated

/-- A database before any migration. -/
def base : Migrated := ⟨.empty, none⟩

def up (s : Migrated) (r : Revision) : Option Migrated :=
  (script r.upgrade s.database).map fun database => ⟨database, some r.revision⟩

def down (s : Migrated) (r : Revision) : Option Migrated :=
  (script r.downgrade s.database).map fun database => ⟨database, r.downRevision⟩

/-- `upgrade +1` -/
def upgradeNext (s : Migrated) : Option Migrated :=
  (versions.find? fun r => r.downRevision = s.version).bind s.up

/-- `downgrade -1` -/
def downgradePrevious (s : Migrated) : Option Migrated :=
  (versions.find? fun r => some r.revision = s.version).bind s.down

def follow (s : Migrated) (r : Revision) : Option Migrated :=
  if r.downRevision = s.version then s.up r else some s

def undo (s : Migrated) (r : Revision) : Option Migrated :=
  if some r.revision = s.version then s.down r else some s

/-- `upgrade head`: every revision that follows the version, in one transaction. -/
def upgradeHead (s : Migrated) : Option Migrated := versions.foldlM follow s

/-- `downgrade base` -/
def downgradeBase (s : Migrated) : Option Migrated := versions.reverse.foldlM undo s

end Migrated

/-- The commands of an operator, and the transactions between them. -/
inductive MigrationOp
  | upgradeHead
  | upgradeNext
  | downgradePrevious
  | downgradeBase
  | write (contents : Contents)

def migrationNext (s : Migrated) : MigrationOp → Option Migrated
  | .upgradeHead => s.upgradeHead
  | .upgradeNext => s.upgradeNext
  | .downgradePrevious => s.downgradePrevious
  | .downgradeBase => s.downgradeBase
  | .write contents => (s.database.write contents).map fun database => { s with database := database }

abbrev MigrationRun := Run migrationNext .base

def MigrationOp.isDowngrade : MigrationOp → Bool
  | .downgradePrevious | .downgradeBase => true
  | .upgradeHead | .upgradeNext | .write _ => false

def cursorIndex : Index := ⟨"idx_tasks_cursor", "task", ["job_id", "created_at", "id"], false⟩

/-- The schema with the indexes that came later. -/
def schemaWith (later : List Index) (jobNullable : Bool) : Schema where
  types := [("task_status", taskStatusLabels), ("task_type", taskTypeLabels)]
  tables := [jobTable, domainTable, taskTable, domainDetailTable,
    idempotencyRecordTable.setNullable "job_id" jobNullable]
  indexes := [⟨"idx_domain_normalized", "domain", ["normalized_domain"], true⟩,
    ⟨"idx_tasks_claim", "task", ["status", "next_attempt_at", "type"], false⟩,
    ⟨"idx_tasks_lease", "task", ["status", "lease_expires_at"], false⟩,
    ⟨"idx_tasks_job_id", "task", ["job_id"], false⟩,
    ⟨"idx_domain_detail_refresh", "domain_detail", ["next_refresh_at"], false⟩] ++ later

def headSchema : Schema := schemaWith [cursorIndex] false

theorem defines_initialSchema : defines initialSchema.upgrade .empty = some (schemaWith [] false) := by
  decide

theorem defines_initialSchema_downgrade (jobNullable : Bool) :
    defines initialSchema.downgrade (schemaWith [] jobNullable) = some .empty := by
  cases jobNullable <;> decide

theorem defines_addIdxTasksCursor (jobNullable : Bool) :
    (Statement.createIndex cursorIndex).define (schemaWith [] jobNullable) =
      some (schemaWith [cursorIndex] jobNullable) := by
  cases jobNullable <;> decide

theorem defines_addIdxTasksCursor_downgrade (jobNullable : Bool) :
    (Statement.dropIndex "idx_tasks_cursor").define (schemaWith [cursorIndex] jobNullable) =
      some (schemaWith [] jobNullable) := by
  cases jobNullable <;> decide

theorem defines_jobNullable (jobNullable nullable : Bool) :
    (Statement.setNullable "idempotency_record" "job_id" nullable).define
      (schemaWith [cursorIndex] jobNullable) = some (schemaWith [cursorIndex] nullable) := by
  cases jobNullable <;> cases nullable <;> decide

/-- The rows without the records that have lost their job. -/
def withoutLostRecords (contents : Contents) : Contents :=
  (Statement.deleteWhereNull "idempotency_record" "job_id").effect contents

def lostRecord (contents : Contents) : Bool :=
  (contents "idempotency_record").any fun row => (row "job_id").isNone

theorem withoutLostRecords_eq_iff (contents : Contents) :
    withoutLostRecords contents = contents ↔ lostRecord contents = false := by
  unfold withoutLostRecords Statement.effect lostRecord
  rw [Function.update_eq_self_iff, List.filter_eq_self, List.any_eq_false]
  constructor
  · intro kept row mem lost
    rw [Option.isNone_iff_eq_none] at lost
    have some_job := kept row mem
    rw [lost] at some_job
    cases some_job
  · intro unlost row mem
    have kept := unlost row mem
    cases job : row "job_id" with
    | none =>
      rw [job] at kept
      exact absurd rfl kept
    | some _ => rfl

section Scripts

variable {db : Database} {jobNullable : Bool}

theorem script_initialSchema (conforms : db.Conforms) (start : db.schema = .empty) :
    script initialSchema.upgrade db = some ⟨schemaWith [] false, fun _ => []⟩ := by
  have none_there : db.contents = fun _ => [] := by
    funext name
    refine conforms.absent name ?_
    rw [start]
    exact List.not_mem_nil
  rw [script_nowhere none_there, start, defines_initialSchema]
  rfl

theorem script_initialSchema_downgrade (conforms : db.Conforms) (start : db.schema = schemaWith [] jobNullable) :
    script initialSchema.downgrade db = some .empty := by
  have defined : defines initialSchema.downgrade db.schema = some .empty := by
    rw [start]
    exact defines_initialSchema_downgrade jobNullable
  obtain ⟨contents, run⟩ := script_of_unchecked (by decide) defined
  have after := conforms.script run
  have none_left : contents = fun _ => [] := by
    funext name
    exact after.absent name List.not_mem_nil
  rw [run, none_left]
  rfl

theorem script_addIdxTasksCursor (start : db.schema = schemaWith [] jobNullable) :
    script addIdxTasksCursor.upgrade db = some ⟨schemaWith [cursorIndex] jobNullable, db.contents⟩ := by
  have defined := defines_addIdxTasksCursor jobNullable
  rw [← start] at defined
  exact Option.bind_eq_some_iff.mpr ⟨_, exec_of_check defined rfl, rfl⟩

theorem script_addIdxTasksCursor_downgrade (start : db.schema = schemaWith [cursorIndex] jobNullable) :
    script addIdxTasksCursor.downgrade db = some ⟨schemaWith [] jobNullable, db.contents⟩ := by
  have defined := defines_addIdxTasksCursor_downgrade jobNullable
  rw [← start] at defined
  exact Option.bind_eq_some_iff.mpr ⟨_, exec_of_check defined rfl, rfl⟩

/-- The records that would violate the constraint are deleted before it is set. -/
theorem script_restoreIdempotencyJobId (start : db.schema = schemaWith [cursorIndex] jobNullable) :
    script restoreIdempotencyJobId.upgrade db = some ⟨headSchema, withoutLostRecords db.contents⟩ := by
  have delete : (Statement.deleteWhereNull "idempotency_record" "job_id").define db.schema = some db.schema := by
    rw [start]
    cases jobNullable <;> decide
  have unreferenced : (Statement.deleteWhereNull "idempotency_record" "job_id").check db.schema db.contents =
      true := by
    rw [start]
    rfl
  have defined := defines_jobNullable jobNullable false
  rw [← start] at defined
  have present : (Statement.setNullable "idempotency_record" "job_id" false).check db.schema
      (withoutLostRecords db.contents) = true := by
    refine List.all_eq_true.mpr fun row mem => ?_
    rw [withoutLostRecords, Statement.effect, Function.update_self] at mem
    exact (List.mem_filter.mp mem).2
  refine Option.bind_eq_some_iff.mpr ⟨_, exec_of_check delete unreferenced, ?_⟩
  exact Option.bind_eq_some_iff.mpr ⟨_, @exec_of_check _ ⟨db.schema, _⟩ _ defined present, rfl⟩

theorem script_restoreIdempotencyJobId_downgrade (start : db.schema = headSchema) :
    script restoreIdempotencyJobId.downgrade db = some ⟨schemaWith [cursorIndex] true, db.contents⟩ := by
  have defined := defines_jobNullable false true
  rw [← headSchema, ← start] at defined
  exact Option.bind_eq_some_iff.mpr ⟨_, exec_of_check defined rfl, rfl⟩

end Scripts

namespace Migrated

/-- Whether a record may be without a job depends on whether the last revision has been undone. -/
def atInitial (jobNullable : Bool) (contents : Contents) : Migrated :=
  ⟨⟨schemaWith [] jobNullable, contents⟩, some "20260822_0001"⟩

def atCursor (jobNullable : Bool) (contents : Contents) : Migrated :=
  ⟨⟨schemaWith [cursorIndex] jobNullable, contents⟩, some "20260823_0001"⟩

def atHead (contents : Contents) : Migrated := ⟨⟨headSchema, contents⟩, some "20260824_0002"⟩

inductive Known : Migrated → Prop
  | base : Known .base
  | initial (jobNullable : Bool) (contents : Contents) : Known (atInitial jobNullable contents)
  | cursor (jobNullable : Bool) (contents : Contents) : Known (atCursor jobNullable contents)
  | head (contents : Contents) : Known (atHead contents)

/-- The databases that no downgrade has changed. -/
inductive Upgraded : Migrated → Prop
  | base : Upgraded .base
  | initial (contents : Contents) : Upgraded (atInitial false contents)
  | cursor (contents : Contents) : Upgraded (atCursor false contents)
  | head (contents : Contents) : Upgraded (atHead contents)

variable {s s' : Migrated} {db : Database} {jobNullable : Bool} {contents : Contents}

theorem up_of_script {r : Revision} (h : script r.upgrade s.database = some db) :
    s.up r = some ⟨db, some r.revision⟩ := by
  rw [up, h, Option.map_some]

theorem down_of_script {r : Revision} (h : script r.downgrade s.database = some db) :
    s.down r = some ⟨db, r.downRevision⟩ := by
  rw [down, h, Option.map_some]

theorem up_base : base.up initialSchema = some (atInitial false fun _ => []) :=
  up_of_script (script_initialSchema conforms_empty rfl)

theorem up_atInitial : (atInitial jobNullable contents).up addIdxTasksCursor =
    some (atCursor jobNullable contents) :=
  @up_of_script (atInitial jobNullable contents) _ _ (script_addIdxTasksCursor rfl)

theorem up_atCursor : (atCursor jobNullable contents).up restoreIdempotencyJobId =
    some (atHead (withoutLostRecords contents)) :=
  @up_of_script (atCursor jobNullable contents) _ _ (script_restoreIdempotencyJobId rfl)

theorem down_atHead : (atHead contents).down restoreIdempotencyJobId = some (atCursor true contents) :=
  @down_of_script (atHead contents) _ _ (script_restoreIdempotencyJobId_downgrade rfl)

theorem down_atCursor : (atCursor jobNullable contents).down addIdxTasksCursor =
    some (atInitial jobNullable contents) :=
  @down_of_script (atCursor jobNullable contents) _ _ (script_addIdxTasksCursor_downgrade rfl)

theorem down_atInitial (conforms : (atInitial jobNullable contents).database.Conforms) :
    (atInitial jobNullable contents).down initialSchema = some base :=
  @down_of_script (atInitial jobNullable contents) _ _ (script_initialSchema_downgrade conforms rfl)

theorem upgradeNext_base : base.upgradeNext = some (atInitial false fun _ => []) := up_base

theorem upgradeNext_atInitial : (atInitial jobNullable contents).upgradeNext =
    some (atCursor jobNullable contents) := up_atInitial

theorem upgradeNext_atCursor : (atCursor jobNullable contents).upgradeNext =
    some (atHead (withoutLostRecords contents)) := up_atCursor

theorem upgradeNext_atHead : (atHead contents).upgradeNext = none := rfl

theorem downgradePrevious_base : base.downgradePrevious = none := rfl

theorem downgradePrevious_atInitial (conforms : (atInitial jobNullable contents).database.Conforms) :
    (atInitial jobNullable contents).downgradePrevious = some base := down_atInitial conforms

theorem downgradePrevious_atCursor : (atCursor jobNullable contents).downgradePrevious =
    some (atInitial jobNullable contents) := down_atCursor

theorem downgradePrevious_atHead : (atHead contents).downgradePrevious = some (atCursor true contents) :=
  down_atHead

theorem upgradeHead_eq (s : Migrated) : s.upgradeHead = (s.follow initialSchema).bind fun s =>
    (s.follow addIdxTasksCursor).bind fun s => s.follow restoreIdempotencyJobId := by
  simp only [upgradeHead, versions, List.foldlM_cons, List.foldlM_nil, Option.bind_eq_bind, Option.pure_def,
    Option.bind_fun_some]

theorem downgradeBase_eq (s : Migrated) : s.downgradeBase = (s.undo restoreIdempotencyJobId).bind fun s =>
    (s.undo addIdxTasksCursor).bind fun s => s.undo initialSchema := by
  simp only [downgradeBase, versions, List.reverse_cons, List.reverse_nil, List.nil_append, List.cons_append,
    List.foldlM_cons, List.foldlM_nil, Option.bind_eq_bind, Option.pure_def, Option.bind_fun_some]

theorem upgradeHead_atHead : (atHead contents).upgradeHead = some (atHead contents) := by
  rw [upgradeHead_eq]
  rfl

theorem upgradeHead_atCursor : (atCursor jobNullable contents).upgradeHead =
    some (atHead (withoutLostRecords contents)) := by
  rw [upgradeHead_eq]
  exact up_atCursor

theorem upgradeHead_atInitial : (atInitial jobNullable contents).upgradeHead =
    some (atHead (withoutLostRecords contents)) := by
  rw [upgradeHead_eq]
  change (((atInitial jobNullable contents).up addIdxTasksCursor).bind fun s =>
    s.follow restoreIdempotencyJobId) = _
  rw [up_atInitial]
  exact up_atCursor

theorem upgradeHead_base : base.upgradeHead = some (atHead fun _ => []) := by
  rw [upgradeHead_eq]
  change ((base.up initialSchema).bind fun s => (s.follow addIdxTasksCursor).bind fun s =>
    s.follow restoreIdempotencyJobId) = _
  rw [up_base]
  change (((atInitial false fun _ => []).up addIdxTasksCursor).bind fun s =>
    s.follow restoreIdempotencyJobId) = _
  rw [up_atInitial]
  have kept : withoutLostRecords (fun _ => []) = fun _ => [] := (withoutLostRecords_eq_iff _).mpr rfl
  exact (@up_atCursor false fun _ => []).trans (congrArg (fun c => some (atHead c)) kept)

theorem downgradeBase_base : base.downgradeBase = some base := by
  rw [downgradeBase_eq]
  rfl

theorem downgradeBase_atInitial (conforms : (atInitial jobNullable contents).database.Conforms) :
    (atInitial jobNullable contents).downgradeBase = some base := by
  rw [downgradeBase_eq]
  exact down_atInitial conforms

theorem conforms_up {r : Revision} (conforms : s.database.Conforms) (h : s.up r = some s') :
    s'.database.Conforms := by
  obtain ⟨database, run, rfl⟩ := Option.map_eq_some_iff.mp h
  exact conforms.script run

theorem conforms_down {r : Revision} (conforms : s.database.Conforms) (h : s.down r = some s') :
    s'.database.Conforms := by
  obtain ⟨database, run, rfl⟩ := Option.map_eq_some_iff.mp h
  exact conforms.script run

theorem downgradeBase_atCursor (conforms : (atCursor jobNullable contents).database.Conforms) :
    (atCursor jobNullable contents).downgradeBase = some base := by
  rw [downgradeBase_eq]
  change (((atCursor jobNullable contents).down addIdxTasksCursor).bind fun s => s.undo initialSchema) = _
  rw [down_atCursor]
  exact down_atInitial (conforms_down conforms down_atCursor)

theorem downgradeBase_atHead (conforms : (atHead contents).database.Conforms) :
    (atHead contents).downgradeBase = some base := by
  rw [downgradeBase_eq]
  change (((atHead contents).down restoreIdempotencyJobId).bind fun s =>
    (s.undo addIdxTasksCursor).bind fun s => s.undo initialSchema) = _
  rw [down_atHead, ← downgradeBase_atCursor (conforms_down conforms down_atHead), downgradeBase_eq]
  rfl

/-- In the schema of the head every record has its job. -/
theorem lostRecord_atHead (conforms : (atHead contents).database.Conforms) : lostRecord contents = false := by
  refine List.any_eq_false.mpr fun row mem lost => ?_
  have listed : idempotencyRecordTable.setNullable "job_id" false ∈ headSchema.tables := by decide
  have held := conforms.tables _ listed
  have accepted := held.columns row mem ⟨"job_id", .uuid, false⟩ (by decide)
  rw [Option.isNone_iff_eq_none.mp lost] at accepted
  cases accepted

/-- The invariant of every sequence of commands and transactions. -/
structure Sound (s : Migrated) : Prop where
  conforms : s.database.Conforms
  known : s.Known

theorem Sound.base : base.Sound := ⟨conforms_empty, .base⟩

theorem upgradeHead_sound (sound : s.Sound) :
    s.upgradeHead = some (atHead (withoutLostRecords s.database.contents)) := by
  obtain ⟨conforms, known⟩ := sound
  cases known with
  | base =>
    have kept : withoutLostRecords (fun _ => []) = fun _ => [] := (withoutLostRecords_eq_iff _).mpr rfl
    exact upgradeHead_base.trans (congrArg (fun c => some (atHead c)) kept.symm)
  | initial => exact upgradeHead_atInitial
  | cursor => exact upgradeHead_atCursor
  | head contents =>
    have kept := (withoutLostRecords_eq_iff _).mpr (lostRecord_atHead conforms)
    exact upgradeHead_atHead.trans (congrArg (fun c => some (atHead c)) kept.symm)

theorem downgradeBase_sound (sound : s.Sound) : s.downgradeBase = some .base := by
  obtain ⟨conforms, known⟩ := sound
  cases known with
  | base => exact downgradeBase_base
  | initial => exact downgradeBase_atInitial conforms
  | cursor => exact downgradeBase_atCursor conforms
  | head => exact downgradeBase_atHead conforms

theorem upgradeNext_sound (sound : s.Sound) (h : s.upgradeNext = some s') : s'.Sound := by
  obtain ⟨conforms, known⟩ := sound
  cases known with
  | base =>
    cases Option.some.inj (upgradeNext_base.symm.trans h)
    exact ⟨conforms_up conforms up_base, .initial _ _⟩
  | initial =>
    cases Option.some.inj (upgradeNext_atInitial.symm.trans h)
    exact ⟨conforms_up conforms up_atInitial, .cursor _ _⟩
  | cursor =>
    cases Option.some.inj (upgradeNext_atCursor.symm.trans h)
    exact ⟨conforms_up conforms up_atCursor, .head _⟩
  | head => cases upgradeNext_atHead.symm.trans h

theorem downgradePrevious_sound (sound : s.Sound) (h : s.downgradePrevious = some s') : s'.Sound := by
  obtain ⟨conforms, known⟩ := sound
  cases known with
  | base => cases downgradePrevious_base.symm.trans h
  | initial =>
    cases Option.some.inj ((downgradePrevious_atInitial conforms).symm.trans h)
    exact .base
  | cursor =>
    cases Option.some.inj (downgradePrevious_atCursor.symm.trans h)
    exact ⟨conforms_down conforms down_atCursor, .initial _ _⟩
  | head =>
    cases Option.some.inj (downgradePrevious_atHead.symm.trans h)
    exact ⟨conforms_down conforms down_atHead, .cursor _ _⟩

theorem follow_conforms {r : Revision} (conforms : s.database.Conforms) (h : s.follow r = some s') :
    s'.database.Conforms := by
  unfold follow at h
  split at h
  · exact conforms_up conforms h
  · cases Option.some.inj h
    exact conforms

theorem upgradeHead_conforms (conforms : s.database.Conforms) (h : s.upgradeHead = some s') :
    s'.database.Conforms := by
  rw [upgradeHead_eq] at h
  obtain ⟨first, h₁, h⟩ := Option.bind_eq_some_iff.mp h
  obtain ⟨second, h₂, h₃⟩ := Option.bind_eq_some_iff.mp h
  exact follow_conforms (follow_conforms (follow_conforms conforms h₁) h₂) h₃

theorem write_base {contents rows : Contents}
    (h : Database.write ⟨.empty, fun _ => []⟩ contents = some ⟨.empty, rows⟩) : rows = fun _ => [] :=
  funext fun name => (write_cases h).2.absent name List.not_mem_nil

theorem Known.write {contents : Contents} (known : s.Known) (h : s.database.write contents = some db) :
    Known { s with database := db } := by
  obtain ⟨same, -⟩ := write_cases h
  obtain ⟨schema, rows⟩ := db
  cases same
  cases known with
  | base =>
    rw [write_base h]
    exact .base
  | initial => exact .initial _ _
  | cursor => exact .cursor _ _
  | head => exact .head _

theorem Sound.step {op : MigrationOp} (sound : s.Sound) (h : migrationNext s op = some s') : s'.Sound := by
  cases op with
  | upgradeNext => exact upgradeNext_sound sound h
  | downgradePrevious => exact downgradePrevious_sound sound h
  | upgradeHead =>
    have conforms := upgradeHead_conforms sound.conforms h
    cases Option.some.inj ((upgradeHead_sound sound).symm.trans h)
    exact ⟨conforms, .head _⟩
  | downgradeBase =>
    cases Option.some.inj ((downgradeBase_sound sound).symm.trans h)
    exact .base
  | write contents =>
    obtain ⟨database, written, rfl⟩ := Option.map_eq_some_iff.mp h
    exact ⟨(write_cases written).2, sound.known.write written⟩

theorem upgradeNext_eq_none_iff (known : s.Known) :
    s.upgradeNext = none ↔ s.version = some "20260824_0002" := by
  cases known with
  | base =>
    rw [upgradeNext_base]
    exact iff_of_false (Option.some_ne_none _) fun version => by cases version
  | initial =>
    rw [upgradeNext_atInitial]
    exact iff_of_false (Option.some_ne_none _)
      (by decide : (some "20260822_0001" : Option String) ≠ some "20260824_0002")
  | cursor =>
    rw [upgradeNext_atCursor]
    exact iff_of_false (Option.some_ne_none _)
      (by decide : (some "20260823_0001" : Option String) ≠ some "20260824_0002")
  | head => exact iff_of_true rfl rfl

theorem downgradePrevious_eq_none_iff (sound : s.Sound) : s.downgradePrevious = none ↔ s.version = none := by
  obtain ⟨conforms, known⟩ := sound
  cases known with
  | base => exact iff_of_true rfl rfl
  | initial =>
    rw [downgradePrevious_atInitial conforms]
    exact iff_of_false (Option.some_ne_none _) (Option.some_ne_none _)
  | cursor =>
    rw [downgradePrevious_atCursor]
    exact iff_of_false (Option.some_ne_none _) (Option.some_ne_none _)
  | head =>
    rw [downgradePrevious_atHead]
    exact iff_of_false (Option.some_ne_none _) (Option.some_ne_none _)

theorem sound_run {trace : List (Migrated × MigrationOp)} (run : MigrationRun trace s) : s.Sound :=
  Run.invariant (P := Sound) run .base fun sound h => sound.step h

theorem upgradeNext_upgraded (upgraded : s.Upgraded) (h : s.upgradeNext = some s') : s'.Upgraded := by
  cases upgraded with
  | base =>
    cases Option.some.inj (upgradeNext_base.symm.trans h)
    exact .initial _
  | initial =>
    cases Option.some.inj (upgradeNext_atInitial.symm.trans h)
    exact .cursor _
  | cursor =>
    cases Option.some.inj (upgradeNext_atCursor.symm.trans h)
    exact .head _
  | head => cases upgradeNext_atHead.symm.trans h

theorem Upgraded.write {contents : Contents} (upgraded : s.Upgraded) (h : s.database.write contents = some db) :
    Upgraded { s with database := db } := by
  obtain ⟨same, -⟩ := write_cases h
  obtain ⟨schema, rows⟩ := db
  cases same
  cases upgraded with
  | base =>
    rw [write_base h]
    exact .base
  | initial => exact .initial _
  | cursor => exact .cursor _
  | head => exact .head _

theorem upgraded_run {trace : List (Migrated × MigrationOp)} (run : MigrationRun trace s)
    (upwards : ∀ p ∈ trace, p.2.isDowngrade = false) : s.Upgraded := by
  have both := Run.guarded (P := fun s => Sound s ∧ Upgraded s) (fun _ op => op.isDowngrade = false) run
    ⟨.base, .base⟩ (fun {before op after} kept up h => ?_) upwards
  · exact both.2
  obtain ⟨sound, upgraded⟩ := kept
  refine ⟨sound.step h, ?_⟩
  cases op with
  | upgradeNext => exact upgradeNext_upgraded upgraded h
  | upgradeHead =>
    cases Option.some.inj ((upgradeHead_sound sound).symm.trans h)
    exact .head _
  | write contents =>
    obtain ⟨database, written, rfl⟩ := Option.map_eq_some_iff.mp h
    exact upgraded.write written
  | downgradePrevious => cases up
  | downgradeBase => cases up

/-- With every record's job required already, the last revision has nothing to do, and only
its downgrade changes the schema. -/
theorem upgradeNext_atCursor_required (conforms : (atCursor false contents).database.Conforms) :
    (atCursor false contents).upgradeNext = some (atHead contents) ∧
      (atHead contents).downgradePrevious ≠ some (atCursor false contents) := by
  have kept := (withoutLostRecords_eq_iff contents).mpr (lostRecord_atHead conforms)
  refine ⟨upgradeNext_atCursor.trans (congrArg (fun c => some (atHead c)) kept), fun undone => ?_⟩
  have same := Option.some.inj (downgradePrevious_atHead.symm.trans undone)
  have apart : schemaWith [cursorIndex] true ≠ schemaWith [cursorIndex] false := by decide
  exact apart (congrArg (fun m => m.database.schema) same)

end Migrated

open Migrated

variable {s : Migrated} {trace : List (Migrated × MigrationOp)}

/-- Whatever was migrated and written before, the migrations run to both ends, and the way
to the head costs no row but the records without a job. -/
theorem migrations_never_fail (run : MigrationRun trace s) :
    s.database.Conforms ∧
      s.upgradeHead = some (atHead (withoutLostRecords s.database.contents)) ∧
      s.downgradeBase = some .base ∧
      (s.upgradeNext = none ↔ s.version = some "20260824_0002") ∧
      (s.downgradePrevious = none ↔ s.version = none) := by
  have sound := sound_run run
  refine ⟨sound.conforms, upgradeHead_sound sound, downgradeBase_sound sound, ?_⟩
  exact ⟨upgradeNext_eq_none_iff sound.known, downgradePrevious_eq_none_iff sound⟩

/-- A record whose job is `NULL`. -/
def lostContents : Contents := fun name =>
  if name = "idempotency_record" then
    [.of [("id", some (.uuid 1)), ("client_id", some (.text "req-1")), ("idempotency_key", some (.text "key")),
      ("request_hash", some (.text "")), ("created_at", some (.timestamp 0))]]
  else []

/-- The last revision is undone, a record comes in, and the revision is done again. -/
theorem migrations_never_fail_lost :
    ∃ s, exec migrationNext .base [.upgradeHead, .downgradePrevious, .write lostContents] = some s ∧
      s.upgradeHead = some (atHead (withoutLostRecords s.database.contents)) ∧
      (s.database.contents "idempotency_record").length = 1 ∧
      withoutLostRecords s.database.contents "idempotency_record" = [] := by
  have enabled : (exec migrationNext .base [.upgradeHead, .downgradePrevious, .write lostContents]).map
      (fun s => ((s.database.contents "idempotency_record").length,
        (withoutLostRecords s.database.contents "idempotency_record").isEmpty)) = some (1, true) := by decide
  obtain ⟨s, reached, rows⟩ := Option.map_eq_some_iff.mp enabled
  injection rows with one none_left
  exact ⟨s, reached, (migrations_never_fail (exec_run reached)).2.1, one, List.isEmpty_iff.mp none_left⟩

/-- A migration and the next one up are undone by each other, with two exceptions: the rows
that `base` has dropped, and a last revision that changed something. Where nothing was ever
downgraded the last revision changes nothing, and its downgrade leads elsewhere. -/
theorem migrations_round_trip (run : MigrationRun trace s) :
    (∀ lower, s.downgradePrevious = some lower → lower.version ≠ none → lower.upgradeNext = some s) ∧
      (∀ upper, s.upgradeNext = some upper →
        (upper.downgradePrevious = some s ↔ (s.version = some "20260823_0001" →
          s.database.schema = schemaWith [cursorIndex] true ∧ lostRecord s.database.contents = false))) ∧
      ((∀ p ∈ trace, p.2.isDowngrade = false) → s.version = some "20260823_0001" →
        ∃ upper, s.upgradeNext = some upper ∧ upper.database = s.database ∧ upper.downgradePrevious ≠ some s) := by
  obtain ⟨conforms, known⟩ := sound_run run
  refine ⟨?_, ?_, fun upwards version => ?_⟩
  · intro lower undone above
    cases known with
    | base => cases downgradePrevious_base.symm.trans undone
    | initial =>
      cases Option.some.inj ((downgradePrevious_atInitial conforms).symm.trans undone)
      exact absurd rfl above
    | cursor =>
      cases Option.some.inj (downgradePrevious_atCursor.symm.trans undone)
      exact upgradeNext_atInitial
    | head contents =>
      cases Option.some.inj (downgradePrevious_atHead.symm.trans undone)
      have kept := (withoutLostRecords_eq_iff _).mpr (lostRecord_atHead conforms)
      exact upgradeNext_atCursor.trans (congrArg (fun c => some (atHead c)) kept)
  · intro upper done
    cases known with
    | base =>
      cases Option.some.inj (upgradeNext_base.symm.trans done)
      have undone := downgradePrevious_atInitial (conforms_up conforms up_base)
      exact iff_of_true undone fun version => by cases version
    | initial jobNullable contents =>
      cases Option.some.inj (upgradeNext_atInitial.symm.trans done)
      refine iff_of_true downgradePrevious_atCursor fun version => ?_
      exact absurd version (by decide : (some "20260822_0001" : Option String) ≠ some "20260823_0001")
    | cursor jobNullable contents =>
      cases Option.some.inj (upgradeNext_atCursor.symm.trans done)
      rw [downgradePrevious_atHead, Option.some.injEq, ← withoutLostRecords_eq_iff]
      constructor
      · intro same _
        have schema := congrArg (fun m => m.database.schema) same
        exact ⟨schema.symm, congrArg (fun m => m.database.contents) same⟩
      · intro unchanged
        obtain ⟨schema, kept⟩ := unchanged rfl
        change withoutLostRecords contents = contents at kept
        change schemaWith [cursorIndex] jobNullable = schemaWith [cursorIndex] true at schema
        rw [kept, atCursor, atCursor, schema]
    | head => cases upgradeNext_atHead.symm.trans done
  · have upgraded := upgraded_run run upwards
    cases upgraded with
    | base => cases version
    | initial => exact absurd version (by decide : (some "20260822_0001" : Option String) ≠ some "20260823_0001")
    | cursor contents =>
      obtain ⟨done, apart⟩ := upgradeNext_atCursor_required conforms
      exact ⟨_, done, rfl, apart⟩
    | head => exact absurd version (by decide : (some "20260824_0002" : Option String) ≠ some "20260823_0001")

/-- On a fresh database the last revision changes nothing, and its downgrade does. -/
theorem migrations_round_trip_fresh :
    ∃ s upper, exec migrationNext .base [.upgradeNext, .upgradeNext] = some s ∧ s.upgradeNext = some upper ∧
      upper.downgradePrevious ≠ some s ∧ upper.database.schema = s.database.schema := by
  have enabled : exec migrationNext .base [.upgradeNext, .upgradeNext] =
      some (atCursor false fun _ => []) := by
    rw [exec, migrationNext, upgradeNext_base, Option.bind_some, exec, migrationNext, upgradeNext_atInitial,
      Option.bind_some, exec]
  have trip := (migrations_round_trip (exec_run enabled)).2.1 _ upgradeNext_atCursor
  refine ⟨_, _, enabled, upgradeNext_atCursor, fun undone => ?_, rfl⟩
  have changed := (trip.mp undone rfl).1
  have apart : schemaWith [cursorIndex] false ≠ schemaWith [cursorIndex] true := by decide
  exact apart changed

end DomainProcessing
