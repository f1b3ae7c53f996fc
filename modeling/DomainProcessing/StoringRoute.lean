import DomainProcessing.JobSubmission
import DomainProcessing.PythonStrings
import Mathlib.Data.String.Basic

namespace DomainProcessing

open Tables

/-- A code point as `json.dumps` writes it. -/
def jsonCodePoint : CodePoint → List Char
  | .char c => jsonChar c
  | .surrogate offset => unicodeEscape (0xd800 + offset)

namespace PyStr

def jsonString (s : PyStr) : List Char := '"' :: s.flatMap jsonCodePoint ++ ['"']

/-- The order of Python strings, by code points. -/
def le (a b : PyStr) : Bool := decide (a.map CodePoint.value ≤ b.map CodePoint.value)

def canonicalPayload (text : PythonText) (domains : List PyStr) : String :=
  let normalized := domains.map fun d => (normalizeDomain text d).value
  let sorted := normalized.mergeSort le
  "\x7b\"domains\":[" ++ String.ofList ([','].intercalate (sorted.map jsonString)) ++ "]\x7d"

def computeRequestHash (text : PythonText) (sha256 : String → String) (domains : List PyStr) : String :=
  sha256 (canonicalPayload text domains)

end PyStr

namespace PyNormalizedDomain

def text (d : PyNormalizedDomain) : NormalizedDomain := ⟨d.value.text, d.isValid, d.error.map PyStr.text⟩

/-- The name of the domain row: an invalid entry without a value has another one. -/
def name (d : PyNormalizedDomain) : PyStr :=
  if d.isValid then d.value else if d.value = [] then PyStr.ofString "invalid" else d.value

def validationMessage (d : PyNormalizedDomain) : PyStr :=
  match d.error with
  | none => PyStr.ofString "Domain validation failed"
  | some e => if e = [] then PyStr.ofString "Domain validation failed" else e

end PyNormalizedDomain

/-- A POST /jobs request with the strings that its JSON body may hold. -/
structure PyCreateJobRequest where
  domains : List PyStr
  idempotencyKey : Option String
  clientId : Option String
  requestId : String
  deriving DecidableEq, Repr

namespace PyCreateJobRequest

def ofText (request : CreateJobRequest) : PyCreateJobRequest :=
  ⟨request.domains.map PyStr.ofString, request.idempotencyKey, request.clientId, request.requestId⟩

def effectiveClientId (request : PyCreateJobRequest) : String :=
  match request.clientId with
  | none => request.requestId
  | some clientId => if clientId = "" then request.requestId else clientId

def scope (request : PyCreateJobRequest) : Option (String × String) :=
  match request.idempotencyKey with
  | none => none
  | some key => if key = "" then none else some (request.effectiveClientId, key)

/-- There is a record of the key, so that nothing is to be written. -/
def keyUsed (request : PyCreateJobRequest) (db : Db) : Bool :=
  (request.scope.bind db.idempotencyRecords.get).isSome

/-- The request as it enters the `try` block. -/
def submission (text : PythonText) (sha256 : String → String) (request : PyCreateJobRequest)
    (draws : RequestDraws) : Submission :=
  let results := (request.domains.map (PyStr.normalizeDomain text)).map PyNormalizedDomain.text
  { effectiveClientId := request.effectiveClientId
    idempotencyKey := request.idempotencyKey
    requestHash := PyStr.computeRequestHash text sha256 request.domains
    finalValidDomains := deduplicatedResults text (validResults results)
    invalidDomains := invalidResults results
    now := draws.now
    jobUuid := draws.jobUuid
    recordUuid := draws.recordUuid
    domainUuid := draws.domainUuid
    taskUuid := draws.taskUuid }

/-- The names of the rows that the request looks up, or creates. -/
def names (text : PythonText) (request : PyCreateJobRequest) : List PyStr :=
  request.domains.map fun d => (PyStr.normalizeDomain text d).name

/-- The texts of the error payloads. -/
def payloadTexts (text : PythonText) (request : PyCreateJobRequest) : List PyStr :=
  ((request.domains.map (PyStr.normalizeDomain text)).filter fun d => !d.isValid).flatMap fun d =>
    [PyStr.ofString "VALIDATION_ERROR", d.validationMessage]

/-- The texts that reach the database. -/
def sentTexts (text : PythonText) (request : PyCreateJobRequest) : List PyStr :=
  request.names text ++ request.payloadTexts text

end PyCreateJobRequest

/-- The route `POST /jobs` with no other transaction running. A key that was used
before is answered from its record; else the database raises over a text it cannot
hold, and the handler of all exceptions rolls back and answers 500. -/
def postJobsStoring (settings : AppSettings) (text : PythonText) (sha256 : String → String)
    (isShuttingDown : Bool) (request : PyCreateJobRequest) (draws : RequestDraws) (db : Db) :
    Db × Except HttpException JobResponse :=
  if isShuttingDown then (db, .error ⟨503, "Service is shutting down"⟩)
  else if request.domains = [] then (db, .error ⟨400, "domains list cannot be empty"⟩)
  else if request.domains.length > settings.maxDomainsPerRequest then
    (db, .error ⟨413, s!"maximum {settings.maxDomainsPerRequest} domains per request"⟩)
  else
    if request.keyUsed db = true ∨ ∀ s ∈ request.sentTexts text, s.Storable then
      let result := createJob (request.submission text sha256 draws) db
      (result.1, .ok result.2)
    else (db, .ok .failed)

section Text

variable {text : PythonText}

theorem PyStr.jsonString_ofString (s : String) :
    PyStr.jsonString (.ofString s) = DomainProcessing.jsonString s := by
  unfold PyStr.jsonString DomainProcessing.jsonString PyStr.ofString PyStr.ofChars
  rw [List.flatMap_map]
  rfl

theorem map_value_lt {a b : List Char} :
    (PyStr.ofChars a).map CodePoint.value < (PyStr.ofChars b).map CodePoint.value ↔ a < b := by
  induction a generalizing b with
  | nil =>
    cases b with
    | nil => simp [PyStr.ofChars]
    | cons d rest => simp [PyStr.ofChars]
  | cons c rest ih =>
    cases b with
    | nil => simp [PyStr.ofChars]
    | cons d others =>
      have smaller : c.toNat < d.toNat ↔ c < d := Iff.rfl
      have same : c.toNat = d.toNat ↔ c = d := Char.toNat_inj
      show c.toNat :: (PyStr.ofChars rest).map CodePoint.value <
        d.toNat :: (PyStr.ofChars others).map CodePoint.value ↔ _
      rw [List.cons_lt_cons_iff, List.cons_lt_cons_iff, ih, smaller, same]

theorem PyStr.le_ofString (a b : String) : PyStr.le (.ofString a) (.ofString b) = decide (a ≤ b) := by
  unfold PyStr.le
  rw [decide_eq_decide, String.le_iff_toList_le, ← not_lt, ← not_lt]
  exact not_congr map_value_lt

theorem PyStr.canonicalPayload_ofString (domains : List String) :
    PyStr.canonicalPayload text (domains.map PyStr.ofString) = DomainProcessing.canonicalPayload text domains := by
  have values : ((domains.map PyStr.ofString).map fun d => (PyStr.normalizeDomain text d).value) =
      (domains.map fun d => (DomainProcessing.normalizeDomain text d).value).map PyStr.ofString := by
    rw [List.map_map, List.map_map]
    refine List.map_congr_left fun d _ => ?_
    simp only [Function.comp_apply, PyStr.normalizeDomain_ofString, PyNormalizedDomain.ofText]
  have sorted := List.map_mergeSort (r := fun a b : String => decide (a ≤ b)) (s := PyStr.le) (f := PyStr.ofString)
    (l := domains.map fun d => (DomainProcessing.normalizeDomain text d).value)
    fun a _ b _ => (PyStr.le_ofString a b).symm
  unfold PyStr.canonicalPayload DomainProcessing.canonicalPayload
  dsimp only
  rw [values, ← sorted, List.map_map]
  simp only [Function.comp_def, PyStr.jsonString_ofString]

theorem PyNormalizedDomain.text_ofText (d : NormalizedDomain) : (PyNormalizedDomain.ofText d).text = d := by
  unfold PyNormalizedDomain.text PyNormalizedDomain.ofText
  cases d with
  | mk value isValid error =>
    have kept : PyStr.text ∘ PyStr.ofString = id := funext PyStr.text_ofString
    simp only [PyStr.text_ofString, Option.map_map, kept, Option.map_id_fun, id]

theorem PyCreateJobRequest.submission_ofText {sha256 : String → String} (request : CreateJobRequest)
    (draws : RequestDraws) :
    (PyCreateJobRequest.ofText request).submission text sha256 draws = request.submission text sha256 draws := by
  have results : ((request.domains.map PyStr.ofString).map (PyStr.normalizeDomain text)).map
      PyNormalizedDomain.text = request.domains.map (normalizeDomain text) := by
    rw [List.map_map, List.map_map]
    refine List.map_congr_left fun d _ => ?_
    simp only [Function.comp_apply, PyStr.normalizeDomain_ofString, PyNormalizedDomain.text_ofText]
  unfold PyCreateJobRequest.submission CreateJobRequest.submission PyStr.computeRequestHash computeRequestHash
  simp only [PyCreateJobRequest.ofText, results, PyStr.canonicalPayload_ofString]
  rfl

theorem normalResults_text {domains : List PyStr} :
    NormalResults text ((domains.map (PyStr.normalizeDomain text)).map PyNormalizedDomain.text) := by
  rw [List.map_map]
  intro d hd valid
  obtain ⟨raw, _, rfl⟩ := List.mem_map.mp hd
  obtain ⟨v, hv, same⟩ := PyStr.normalizeDomain_valid valid
  rw [Function.comp_apply, same, PyNormalizedDomain.text_ofText]
  exact normalizeDomain_of_syntax text hv

/-- On storable texts the database never raises. -/
theorem postJobsStoring_ofText {settings : AppSettings} {sha256 : String → String} {isShuttingDown : Bool}
    {request : CreateJobRequest} {draws : RequestDraws} {db : Db}
    (storable : ∀ s ∈ (PyCreateJobRequest.ofText request).sentTexts text, s.Storable) :
    postJobsStoring settings text sha256 isShuttingDown (.ofText request) draws db =
      postJobs settings text sha256 isShuttingDown request draws db := by
  have empty : (PyCreateJobRequest.ofText request).domains = [] ↔ request.domains = [] := List.map_eq_nil_iff
  have length : (PyCreateJobRequest.ofText request).domains.length = request.domains.length :=
    List.length_map PyStr.ofString
  unfold postJobsStoring postJobs
  simp only [empty, length, if_pos (Or.inr storable), PyCreateJobRequest.submission_ofText]

end Text

end DomainProcessing
