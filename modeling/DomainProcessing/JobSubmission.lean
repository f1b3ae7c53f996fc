import DomainProcessing.JobRetrieval
import DomainProcessing.RequestHash

namespace DomainProcessing

open Tables

/-- A POST /jobs request: its payload, its headers and the id the middleware gave it. -/
structure CreateJobRequest where
  domains : List String
  idempotencyKey : Option String
  clientId : Option String
  requestId : String
  deriving DecidableEq, Repr

/-- The clock reading and the identifiers that a request draws. -/
structure RequestDraws where
  now : Instant
  jobUuid : JobId
  recordUuid : Nat
  domainUuid : String → DomainId
  taskUuid : Nat → TaskId

/-- `client_id or request_id` -/
def CreateJobRequest.effectiveClientId (request : CreateJobRequest) : String :=
  match request.clientId with
  | none => request.requestId
  | some clientId => if clientId = "" then request.requestId else clientId

def validResults (results : List NormalizedDomain) : List NormalizedDomain :=
  results.filter fun d => d.isValid

def invalidResults (results : List NormalizedDomain) : List NormalizedDomain :=
  results.filter fun d => !d.isValid

/-- `valid_domain_map[v]`, where the last result with a value wins. -/
def validDomainMap (valid : List NormalizedDomain) (v : String) : Option NormalizedDomain :=
  valid.reverse.find? fun d => decide (d.value = v)

def deduplicatedResults (text : PythonText) (valid : List NormalizedDomain) :
    List NormalizedDomain :=
  (deduplicateDomains text (valid.map NormalizedDomain.value)).filterMap (validDomainMap valid)

/-- The request as it enters the `try` block. -/
def CreateJobRequest.submission (text : PythonText) (sha256 : String → String)
    (request : CreateJobRequest) (draws : RequestDraws) : Submission :=
  let results := request.domains.map (normalizeDomain text)
  { effectiveClientId := request.effectiveClientId
    idempotencyKey := request.idempotencyKey
    requestHash := computeRequestHash text sha256 request.domains
    finalValidDomains := deduplicatedResults text (validResults results)
    invalidDomains := invalidResults results
    now := draws.now
    jobUuid := draws.jobUuid
    recordUuid := draws.recordUuid
    domainUuid := draws.domainUuid
    taskUuid := draws.taskUuid }

/-- The route `POST /jobs` with no other transaction running, on payloads whose
texts the database can hold. -/
def postJobs (settings : AppSettings) (text : PythonText) (sha256 : String → String)
    (isShuttingDown : Bool) (request : CreateJobRequest) (draws : RequestDraws) (db : Db) :
    Db × Except HttpException JobResponse :=
  if isShuttingDown then (db, .error ⟨503, "Service is shutting down"⟩)
  else if request.domains = [] then (db, .error ⟨400, "domains list cannot be empty"⟩)
  else if request.domains.length > settings.maxDomainsPerRequest then
    (db, .error ⟨413, s!"maximum {settings.maxDomainsPerRequest} domains per request"⟩)
  else
    let result := createJob (request.submission text sha256 draws) db
    (result.1, .ok result.2)

/-- A request that is answered without an error has been a `create_job`. -/
theorem postJobs_ok {settings : AppSettings} {text : PythonText} {sha256 : String → String}
    {isShuttingDown : Bool} {request : CreateJobRequest} {draws : RequestDraws} {db after : Db}
    {response : JobResponse}
    (h : postJobs settings text sha256 isShuttingDown request draws db = (after, .ok response)) :
    createJob (request.submission text sha256 draws) db = (after, response) := by
  unfold postJobs at h
  split at h
  next => cases h
  next =>
    split at h
    next => cases h
    next =>
      split at h
      next => cases h
      next =>
        obtain ⟨hdb, hanswer⟩ := Prod.mk.inj h
        exact Prod.ext hdb (Except.ok.inj hanswer)

/-- Each valid result is the normal form of its own value. -/
def NormalResults (text : PythonText) (results : List NormalizedDomain) : Prop :=
  ∀ d ∈ results, d.isValid = true → normalizeDomain text d.value = d

section Results

variable {text : PythonText} {domains : List String} {results : List NormalizedDomain}

theorem normalResults_map : NormalResults text (domains.map (normalizeDomain text)) := by
  intro d hd valid
  obtain ⟨raw, _, rfl⟩ := List.mem_map.mp hd
  exact normalizeDomain_value valid

theorem value_fixed (normal : NormalResults text results) {v : String}
    (h : v ∈ (validResults results).map NormalizedDomain.value) : normalizeDomain text v = ⟨v, true, none⟩ := by
  obtain ⟨d, hd, rfl⟩ := List.mem_map.mp h
  obtain ⟨listed, valid⟩ := List.mem_filter.mp hd
  have fixed := normal d listed valid
  obtain ⟨w, _, he⟩ := normalizeDomain_valid (fixed ▸ valid)
  rw [fixed] at he ⊢
  rw [he]

theorem validDomainMap_value {valid : List NormalizedDomain} {v : String}
    (h : v ∈ valid.map NormalizedDomain.value) :
    (validDomainMap valid v).map NormalizedDomain.value = some v := by
  obtain ⟨d, hd, rfl⟩ := List.mem_map.mp h
  unfold validDomainMap
  cases hf : valid.reverse.find? fun e => decide (e.value = d.value) with
  | none => simpa using List.find?_eq_none.mp hf d (List.mem_reverse.mpr hd)
  | some e => simpa using List.find?_some hf

/-- Looking the deduplicated values up again loses none of them. -/
theorem deduplicatedResults_values (normal : NormalResults text results) :
    (deduplicatedResults text (validResults results)).map NormalizedDomain.value =
      deduplicateDomains text ((validResults results).map NormalizedDomain.value) := by
  unfold deduplicatedResults
  rw [List.map_filterMap]
  refine (List.filterMap_congr ?_).trans List.filterMap_some
  intro v hv
  have valid := ((mem_deduplicateFrom fun _ => value_fixed normal).mp hv).1
  exact validDomainMap_value valid

theorem mem_deduplicatedResults (normal : NormalResults text results) {v : String} :
    v ∈ (deduplicatedResults text (validResults results)).map NormalizedDomain.value ↔
      v ∈ (validResults results).map NormalizedDomain.value := by
  rw [deduplicatedResults_values normal, deduplicateDomains, mem_deduplicateFrom fun _ => value_fixed normal]
  exact and_iff_left List.not_mem_nil

end Results

end DomainProcessing
