import DomainProcessing.Config
import DomainProcessing.TaskRepository

namespace DomainProcessing

open Tables OrderedSelection

/-- The answer of a route that raises `HTTPException`. -/
structure HttpException where
  statusCode : Nat
  detail : String
  deriving DecidableEq, Repr

structure Cursor where
  createdAt : Instant
  taskId : TaskId
  deriving DecidableEq, Repr

/-- `Cursor.encode` and `Cursor.decode`, where `none` is the `ValueError`. -/
structure CursorCodec where
  encode : Cursor → String
  decode : String → Option Cursor

def Task.cursor (t : Task) : Cursor := ⟨t.createdAt, t.id⟩

/-- `ORDER BY created_at, id` -/
def Task.pageKey (t : Task) : ℤ ×ₗ ℕ := toLex (t.createdAt, t.id)

def TaskStatus.value : TaskStatus → String
  | .pending => "PENDING"
  | .processing => "PROCESSING"
  | .completed => "COMPLETED"
  | .failed => "FAILED"

structure ErrorDto where
  code : String
  message : String
  retryable : Bool
  deriving DecidableEq, Repr

/-- The fields of the detail that a completed task shows. -/
structure TaskResultData where
  ipAddresses : List String
  dnsRecords : List (String × List String)
  httpStatus : Int
  pageTitle : Option String
  responseTime : Int
  deriving DecidableEq, Repr

structure TaskResultDto where
  taskId : TaskId
  domain : String
  status : String
  result : Option TaskResultData
  error : Option ErrorDto
  deriving DecidableEq, Repr

structure JobSummaryDto where
  total : Nat
  completed : Nat
  failed : Nat
  pending : Nat
  processing : Nat
  deriving DecidableEq, Repr

structure GetJobResponse where
  jobId : JobId
  status : String
  summary : JobSummaryDto
  results : List TaskResultDto
  nextCursor : Option String
  deriving DecidableEq, Repr

def ofJob (jobId : JobId) (t : Task) : Bool := decide (t.jobId = some jobId)

/-- The keyset condition of the page query. -/
def pastCursor (cursor : Option Cursor) (t : Task) : Bool :=
  cursor.all fun c => decide (c.createdAt < t.createdAt ∨ t.createdAt = c.createdAt ∧ c.taskId < t.id)

/-- The repository asks for one row more than its caller. -/
def getByJobIdPaginated (jobId : JobId) (limit : Nat) (cursor : Option Cursor) (tasks : List Task) :
    List Task :=
  select Task.pageKey (fun t => ofJob jobId t && pastCursor cursor t) (limit + 1) tasks

def getSummaryByJobId (jobId : JobId) (tasks : List Task) (status : TaskStatus) : Nat :=
  tasks.countP fun t => ofJob jobId t && t.status == status

def jobSummary (jobId : JobId) (tasks : List Task) : JobSummaryDto :=
  let counts := getSummaryByJobId jobId tasks
  { total := counts .pending + counts .processing + counts .completed + counts .failed
    completed := counts .completed
    failed := counts .failed
    pending := counts .pending
    processing := counts .processing }

def resultData (detail : DomainDetail) : TaskResultData :=
  ⟨detail.ipAddresses, detail.dnsRecords, detail.httpStatus, detail.pageTitle, detail.responseTime⟩

def taskResult (db : Db) (t : Task) : TaskResultDto :=
  { taskId := t.id
    domain := ((db.domains.get t.domainId).map Domain.normalizedDomain).getD "unknown"
    status := t.status.value
    result := if t.status = .completed then (db.details.get t.domainId).map resultData else none
    error :=
      if t.status = .failed then
        t.errorPayload.map fun payload => ⟨payload.code, payload.message, payload.retryable⟩
      else none }

def pageLimit (settings : AppSettings) (limit : Option Int) : Except HttpException Nat :=
  let requested := limit.getD settings.defaultPageSize
  if requested ≤ 0 then .error ⟨400, "limit must be positive"⟩
  else if requested > settings.maxPageSize then .ok settings.maxPageSize
  else .ok requested.toNat

def decodeCursor (codec : CursorCodec) : Option String → Except HttpException (Option Cursor)
  | none => .ok none
  | some text =>
    match codec.decode text with
    | some cursor => .ok (some cursor)
    | none => .error ⟨400, "invalid cursor format"⟩

/-- The page of a job; one row more than fits tells whether another page follows. -/
def jobPage (codec : CursorCodec) (db : Db) (job : Job) (limit : Nat) (cursor : Option Cursor) :
    GetJobResponse :=
  let fetched := getByJobIdPaginated job.id (limit + 1) cursor db.tasks.rows
  let hasNextPage := decide (fetched.length > limit)
  let tasks := if hasNextPage then fetched.take limit else fetched
  { jobId := job.id
    status := job.status.value
    summary := jobSummary job.id db.tasks.rows
    results := tasks.map (taskResult db)
    nextCursor := if hasNextPage then tasks.getLast?.map fun t => codec.encode t.cursor else none }

def getJob (settings : AppSettings) (codec : CursorCodec) (db : Db) (jobId : JobId)
    (limit : Option Int) (cursor : Option String) : Except HttpException GetJobResponse := do
  match db.jobs.get jobId with
  | none => throw ⟨404, "job not found"⟩
  | some job =>
    let limit ← pageLimit settings limit
    let cursor ← decodeCursor codec cursor
    pure (jobPage codec db job limit cursor)

/-- How many tasks a page may show: `min(limit, max_page_size)`. -/
def shownLimit (settings : AppSettings) (limit : Option Int) : Nat :=
  (min (limit.getD settings.defaultPageSize) settings.maxPageSize).toNat

theorem pageLimit_ok {settings : AppSettings} {limit : Option Int}
    (positive : ∀ l, limit = some l → 0 < l) :
    pageLimit settings limit = .ok (shownLimit settings limit) ∧ 0 < shownLimit settings limit := by
  have asked : 0 < limit.getD settings.defaultPageSize := by
    cases limit with
    | none => exact Int.natCast_pos.mpr settings.one_le_defaultPageSize
    | some l => exact positive l rfl
  have bound := settings.one_le_maxPageSize
  unfold pageLimit shownLimit
  refine ⟨?_, by omega⟩
  rw [if_neg (by omega)]
  split
  next => exact congrArg Except.ok (by omega)
  next => exact congrArg Except.ok (by omega)

theorem jobSummary_total (jobId : JobId) (tasks : List Task) :
    (jobSummary jobId tasks).total = tasks.countP (ofJob jobId) := by
  induction tasks with
  | nil => rfl
  | cons t rest ih =>
    simp only [jobSummary, getSummaryByJobId, List.countP_cons] at ih ⊢
    rw [← ih]
    cases ofJob jobId t <;> cases t.status <;> simp <;> omega

/-- A task is shown with a result exactly when it is completed and its domain
has a detail. -/
theorem taskResult_result_isSome (db : Db) (t : Task) :
    (taskResult db t).result.isSome ↔ t.status = .completed ∧ (db.details.get t.domainId).isSome := by
  unfold taskResult
  by_cases h : t.status = .completed <;> simp [h]

end DomainProcessing
