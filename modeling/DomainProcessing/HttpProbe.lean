import DomainProcessing.DomainProbing
import DomainProcessing.ProbeTargets
import DomainProcessing.TitleExtraction

namespace DomainProcessing

def blockedHeaders : List String :=
  ["authorization", "cookie", "set-cookie", "proxy-authorization", "www-authenticate",
    "proxy-authenticate"]

def allowedPrefixes : List String :=
  ["content-", "cache-", "etag", "last-modified", "server", "x-", "access-control-"]

def boundValue (value : String) : String :=
  if 1000 < value.toList.length then String.ofList (value.toList.take 1000 ++ "...".toList) else value

def keepsHeader (text : PythonText) (key : String) : Bool :=
  let keyLower := text.lower key.toList
  !(blockedHeaders.any fun blocked => blocked.toList == keyLower) &&
    allowedPrefixes.any fun allowed => allowed.toList.isPrefixOf keyLower

def filterHeaders (text : PythonText) (headers : List (String × String)) : List (String × String) :=
  (headers.filter fun header => keepsHeader text header.1).map fun header =>
    (header.1, boundValue header.2)

/-- The branches of the `try` in `probe`, in their order. -/
inductive ProbeExceptionKind
  | timeoutException
  | connectError
  | tooManyRedirects
  | requestError
  | other
  deriving DecidableEq

structure ProbeException where
  kind : ProbeExceptionKind
  text : String

/-- `last_error` -/
def ProbeException.lastError (e : ProbeException) : String :=
  match e.kind with
  | .timeoutException => "Timeout: " ++ e.text
  | .connectError => "Connection failed: " ++ e.text
  | .tooManyRedirects => "Too many redirects: " ++ e.text
  | .requestError => "Request error: " ++ e.text
  | .other => "Unexpected error: " ++ e.text

structure HttpResponse where
  statusCode : Int
  headers : List (String × String)
  chunks : List (List UInt8)

/-- What the network does with the requests, and the milliseconds since the start
when the answer to a URL has been read or both have failed. -/
structure Network where
  get : String → Except ProbeException HttpResponse
  elapsed : String → Int
  elapsedAtEnd : Int

/-- The result, with the body and the URLs that have been requested. -/
structure Probe where
  result : HttpResult
  body : List UInt8
  requested : List String

section

variable (text : PythonText) (maxResponseReadBytes : Nat) (network : Network)

def probeResponse (url : String) (response : HttpResponse) : HttpResult × List UInt8 :=
  let body := (readBodyLimited maxResponseReadBytes response.chunks).body
  (⟨response.statusCode, filterHeaders text response.headers, network.elapsed url, extractTitle body, none⟩,
    body)

/-- All attempts failed. -/
def probeFailed (lastError : Option String) : HttpResult :=
  ⟨0, [], network.elapsedAtEnd, none,
    if truthy lastError then lastError else some "All probe attempts failed"⟩

def probeLoop (lastError : Option String) (requested : List String) : List String → Probe
  | [] => ⟨probeFailed network lastError, [], requested⟩
  | url :: urls =>
    match network.get url with
    | .ok response =>
      let read := probeResponse text maxResponseReadBytes network url response
      ⟨read.1, read.2, requested ++ [url]⟩
    | .error e =>
      if e.kind = .tooManyRedirects then
        ⟨probeFailed network (some e.lastError), [], requested ++ [url]⟩
      else probeLoop (some e.lastError) (requested ++ [url]) urls

def probe (validatedIp : String) : Probe :=
  probeLoop text maxResponseReadBytes network none [] (probeUrls validatedIp)

/-- The last URL that was requested has answered, and those before it have raised. -/
structure ProbeAnswered (urls : List String) (p : Probe) (url : String) (response : HttpResponse) :
    Prop where
  listed : p.requested <+: urls
  asked : p.requested.getLast? = some url
  got : network.get url = .ok response
  before : ∀ other ∈ p.requested.dropLast, ∃ e, network.get other = .error e ∧ e.kind ≠ .tooManyRedirects
  body : p.body = response.chunks.flatten.take maxResponseReadBytes
  result : p.result = ⟨response.statusCode, filterHeaders text response.headers, network.elapsed url,
    extractTitle p.body, none⟩

/-- Every URL that was requested has raised, the last one with `e`. -/
structure ProbeUnanswered (urls : List String) (p : Probe) (url : String) (e : ProbeException) :
    Prop where
  listed : p.requested <+: urls
  asked : p.requested.getLast? = some url
  raised : network.get url = .error e
  before : ∀ other ∈ p.requested.dropLast, ∃ e, network.get other = .error e ∧ e.kind ≠ .tooManyRedirects
  whole : p.requested = urls ∨ e.kind = .tooManyRedirects
  body : p.body = []
  result : p.result = ⟨0, [], network.elapsedAtEnd, none, some e.lastError⟩

end

variable {text : PythonText} {maxResponseReadBytes : Nat} {network : Network} {validatedIp url : String}
  {p : Probe} {e : ProbeException}

theorem ProbeException.truthy_lastError (e : ProbeException) : truthy (some e.lastError) = true := by
  have filled : e.lastError ≠ "" := by
    intro empty
    have length := congrArg String.length empty
    unfold ProbeException.lastError at length
    split at length <;> simp [String.length_append] at length
  simp [truthy, filled]

theorem probeFailed_some (e : ProbeException) : probeFailed network (some e.lastError) =
    ⟨0, [], network.elapsedAtEnd, none, some e.lastError⟩ := by
  rw [probeFailed, if_pos e.truthy_lastError]

/-- The loop over one URL or more, after some that have raised. -/
theorem probeLoop_outcome (lastError : Option String) (requested urls : List String) (some_url : urls ≠ [])
    (raised : ∀ other ∈ requested, ∃ e, network.get other = .error e ∧ e.kind ≠ .tooManyRedirects) :
    (∃ url response, ProbeAnswered text maxResponseReadBytes network (requested ++ urls)
      (probeLoop text maxResponseReadBytes network lastError requested urls) url response) ∨
    ∃ url e, ProbeUnanswered network (requested ++ urls)
      (probeLoop text maxResponseReadBytes network lastError requested urls) url e := by
  induction urls generalizing lastError requested with
  | nil => exact absurd rfl some_url
  | cons url urls ih =>
    have listed : requested ++ [url] <+: requested ++ url :: urls :=
      (List.prefix_append_right_inj requested).mpr (List.prefix_append [url] urls)
    rw [probeLoop]
    cases answer : network.get url with
    | ok response =>
      refine Or.inl ⟨url, response, listed, List.getLast?_concat, answer, ?_, readBodyLimited_body _ _, rfl⟩
      simpa using raised
    | error e =>
      by_cases redirects : e.kind = .tooManyRedirects
      · simp only [if_pos redirects]
        refine Or.inr ⟨url, e, listed, List.getLast?_concat, answer, ?_, Or.inr redirects, rfl,
          probeFailed_some e⟩
        simpa using raised
      · simp only [if_neg redirects]
        have raised' : ∀ other ∈ requested ++ [url],
            ∃ e, network.get other = .error e ∧ e.kind ≠ .tooManyRedirects := by
          intro other mem
          rcases List.mem_append.mp mem with earlier | this
          · exact raised other earlier
          · exact ⟨e, List.mem_singleton.mp this ▸ answer, redirects⟩
        cases urls with
        | nil =>
          rw [probeLoop]
          refine Or.inr ⟨url, e, listed, List.getLast?_concat, answer, ?_, Or.inl rfl, rfl, probeFailed_some e⟩
          simpa using raised
        | cons next urls =>
          have rest := ih (some e.lastError) (requested ++ [url]) (List.cons_ne_nil next urls) raised'
          simp only [List.append_assoc, List.singleton_append] at rest ⊢
          exact rest

/-- A probe never raises. It has the first answer there is, read up to the limit, or
the error of its last request. -/
theorem probe_outcome (text : PythonText) (maxResponseReadBytes : Nat) (network : Network)
    (validatedIp : String) :
    (∃ url response, ProbeAnswered text maxResponseReadBytes network (probeUrls validatedIp)
      (probe text maxResponseReadBytes network validatedIp) url response) ∨
    ∃ url e, ProbeUnanswered network (probeUrls validatedIp)
      (probe text maxResponseReadBytes network validatedIp) url e :=
  probeLoop_outcome none [] (probeUrls validatedIp) (List.cons_ne_nil _ _) nofun

theorem filterHeaders_safe {headers : List (String × String)} {header : String × String}
    (h : header ∈ filterHeaders text headers) :
    keepsHeader text header.1 = true ∧ header.2.toList.length ≤ 1003 ∧
      ∃ value, (header.1, value) ∈ headers := by
  obtain ⟨⟨key, value⟩, kept, rfl⟩ := List.mem_map.mp h
  obtain ⟨listed, allowed⟩ := List.mem_filter.mp kept
  refine ⟨allowed, ?_, value, listed⟩
  simp only [boundValue]
  split
  next =>
    have dots : "...".toList.length = 3 := rfl
    rw [String.toList_ofList, List.length_append, List.length_take]
    omega
  next short => omega

theorem keepsHeader_not_blocked {key : String} (h : keepsHeader text key = true) :
    ∀ blocked ∈ blockedHeaders, text.lower key.toList ≠ blocked.toList := by
  intro blocked listed same
  simp only [keepsHeader, Bool.and_eq_true, Bool.not_eq_true', List.any_eq_false] at h
  exact absurd (by simp [same]) (h.1 blocked listed)

/-- A title that the database takes, and no header that carries credentials. -/
structure SafeContent (text : PythonText) (pageTitle : Option String) (headers : List (String × String)) :
    Prop where
  title : ∀ title, pageTitle = some title → title ≠ "" ∧ title.toList.length ≤ 503 ∧ Storable title
  headers : ∀ header ∈ headers, header.2.toList.length ≤ 1003 ∧
    ∀ blocked ∈ blockedHeaders, text.lower header.1.toList ≠ blocked.toList

theorem probe_safe (text : PythonText) (maxResponseReadBytes : Nat) (network : Network) (validatedIp : String) :
    SafeContent text (probe text maxResponseReadBytes network validatedIp).result.pageTitle
      (probe text maxResponseReadBytes network validatedIp).result.headers := by
  rcases probe_outcome text maxResponseReadBytes network validatedIp with
    ⟨url, response, answered⟩ | ⟨url, e, failed⟩
  · rw [answered.result]
    constructor
    · intro title extracted
      obtain ⟨some_char, bounded, -, storable⟩ := title_storable extracted
      refine ⟨?_, bounded, storable⟩
      rintro rfl
      exact some_char rfl
    · intro header mem
      obtain ⟨kept, bounded, -⟩ := filterHeaders_safe mem
      exact ⟨bounded, keepsHeader_not_blocked kept⟩
  · rw [failed.result]
    constructor
    · intro title found
      cases found
    · intro header mem
      cases mem

theorem ProbeUnanswered.result_retryable {urls : List String} (h : ProbeUnanswered network urls p url e) :
    p.result.isSuccess = false ∧ p.result.isRetryableError = true := by
  rw [h.result]
  have truth := e.truthy_lastError
  constructor
  · rfl
  · simp only [HttpResult.isRetryableError, truth, Bool.true_or]

/-- An attempt that comes to probe a domain of which no URL answers is put off with the
error of a URL it has requested. On the last attempt that fails the task as exhausted. -/
theorem unanswered_probe_reschedules (text : PythonText) (maxResponseReadBytes : Nat)
    (network : Network) (a : Attempt) (resolved : a.dns.isSuccess = true) {ip : String}
    (validated : a.validatedIp = some ip)
    (probed : a.probe = .ok (probe text maxResponseReadBytes network ip).result)
    (raises : ∀ url ∈ probeUrls ip, ∃ e, network.get url = .error e) :
    ∃ url e, url ∈ (probe text maxResponseReadBytes network ip).requested ∧ url ∈ probeUrls ip ∧
      network.get url = .error e ∧ a.probeDomain = ⟨a.reschedule ("HTTP error: " ++ e.lastError), true⟩ := by
  have server : a.probeDomain = a.probeServer :=
    Attempt.probeDomain_of_allows resolved (Attempt.allows_of_validated (by rw [validated]; rfl))
  rcases probe_outcome text maxResponseReadBytes network ip with
    ⟨url, response, answered⟩ | ⟨url, e, failed⟩
  · have mem := answered.listed.subset (List.mem_of_getLast? answered.asked)
    obtain ⟨e, raised⟩ := raises url mem
    rw [answered.got] at raised
    cases raised
  · obtain ⟨unsuccessful, retryable⟩ := failed.result_retryable
    have requested := List.mem_of_getLast? failed.asked
    refine ⟨url, e, requested, failed.listed.subset requested, failed.raised, ?_⟩
    have error : formatted (probe text maxResponseReadBytes network ip).result.error = e.lastError := by
      rw [failed.result]
      rfl
    rw [server]
    simp only [Attempt.probeServer, probed, unsuccessful, Attempt.handleHttpFailure, if_pos retryable, error]
    rfl

def deadNetwork : Network := ⟨fun _ => .error ⟨.connectError, "refused"⟩, fun _ => 0, 7⟩

theorem unanswered_probe_reschedules_dead : ∃ a : Attempt, a.probeDomain =
    ⟨a.reschedule "HTTP error: Connection failed: refused", true⟩ := by
  let a : Attempt :=
    { now := 5, draw := .unjittered 5, domainFound := true, freshBefore := false, lock := .acquired,
      freshAfter := false, dns := ⟨["93.184.216.34"], [], none, none⟩, validate := fun ip => ⟨true, ip, none⟩,
      probe := .ok (probe asciiText 1048576 deadNetwork "93.184.216.34").result, persisted := .ok () }
  obtain ⟨url, e, -, -, raised, written⟩ := unanswered_probe_reschedules asciiText 1048576 deadNetwork a
    rfl rfl rfl fun url _ => ⟨_, rfl⟩
  cases raised
  exact ⟨a, written⟩

end DomainProcessing
