import DomainProcessing.ConcurrentSubmissions
import DomainProcessing.IngestionAccounting
import DomainProcessing.StoringRoute
import Mathlib.Logic.Relator

namespace DomainProcessing

open Tables

/-- `uuid4` draws identifiers that no row has, and repeats none. -/
structure FreshDraws (sub : Submission) (db : Db) : Prop where
  job : db.jobs.get sub.jobUuid = none
  domains : ∀ d ∈ db.domains.rows, ∀ name ∈ sub.allDomainStrs, d.id ≠ sub.domainUuid name
  domainsInjective : ∀ name ∈ sub.allDomainStrs, ∀ name' ∈ sub.allDomainStrs,
    sub.domainUuid name = sub.domainUuid name' → name = name'
  tasks : ∀ n, db.tasks.get (sub.taskUuid n) = none
  tasksInjective : Function.Injective sub.taskUuid

section Single

variable {sub : Submission} {db : Db}

/-- Once the missing names have rows, every name is found. -/
theorem found_of_created {domains : Table Domain.id} (created : createMissingDomains sub db.domains = some domains) :
    ∀ name ∈ sub.allDomainStrs,
      ∃ d, findDomain (reactivate sub { db with domains := domains }).domains.rows name = some d := by
  obtain ⟨missing, rows, _, new⟩ := createMissingDomains_rows created
  let known := reactivate sub { db with domains := domains }
  have names : known.domains.rows.map Domain.normalizedDomain =
      domains.rows.map Domain.normalizedDomain := by
    show (domains.rows.map _).map _ = _
    rw [List.map_map]
    refine List.map_congr_left fun d _ => ?_
    simp only [Function.comp_apply]
    split <;> rfl
  intro name hn
  have listed : name ∈ known.domains.rows.map Domain.normalizedDomain := by
    rw [names, rows, List.map_append, map_domainRow, List.mem_append]
    by_cases old : name ∈ db.domains.rows.map Domain.normalizedDomain
    · exact Or.inl old
    · exact Or.inr ((new name).mpr ⟨hn, old⟩)
  cases hf : findDomain known.domains.rows name with
  | none => exact absurd listed (findDomain_isNone_iff.mp (by rw [hf]; rfl))
  | some d => exact ⟨d, rfl⟩

theorem exists_persistTasks (fresh : FreshDraws sub db) {opened : Db} (sameDomains : opened.domains = db.domains)
    (sameTasks : opened.tasks = db.tasks) : ∃ after, persistTasks sub opened = some after := by
  obtain ⟨domains, created, _⟩ := createMissingDomains_fresh fresh.domains fresh.domainsInjective
  rw [← sameDomains] at created
  obtain ⟨valid, invalid, hv, hi⟩ := built_of_found (found_of_created created)
  have unused : ∀ t ∈ valid ++ invalid, opened.tasks.get t.id = none := by
    intro t ht
    obtain ⟨n, same⟩ := taskId_of_built hv hi ht
    rw [same, sameTasks]
    exact fresh.tasks n
  obtain ⟨tasks, inserted⟩ := Table.exists_insert (nodup_taskIds fresh.tasksInjective hv hi) unused
  exact ⟨_, persistTasks_of_inserts created hv hi inserted⟩

theorem exists_openJob (fresh : FreshDraws sub db)
    (unused : sub.scope.bind db.idempotencyRecords.get = none) : ∃ opened, openJob sub db = some opened := by
  obtain ⟨jobs, hj⟩ : ∃ jobs, db.jobs.insert [sub.jobRow] = some jobs := by
    refine Table.exists_insert (List.nodup_singleton _) fun row hrow => ?_
    rw [List.mem_singleton.mp hrow]
    exact fresh.job
  cases hs : sub.scope with
  | none =>
    refine ⟨{ db with jobs := jobs }, Option.bind_eq_some_iff.mpr ⟨jobs, hj, ?_⟩⟩
    simp only [hs]
    rfl
  | some scope =>
    rw [hs] at unused
    obtain ⟨records, hr⟩ : ∃ records, db.idempotencyRecords.insert [sub.recordRow scope] = some records := by
      refine Table.exists_insert (List.nodup_singleton _) fun row hrow => ?_
      rw [List.mem_singleton.mp hrow]
      exact unused
    refine ⟨{ db with jobs := jobs, idempotencyRecords := records },
      Option.bind_eq_some_iff.mpr ⟨jobs, hj, ?_⟩⟩
    simp only [hs]
    exact Option.bind_eq_some_iff.mpr ⟨records, hr, rfl⟩

/-- With an unused scope the request is accepted. -/
theorem createJob_of_unused (fresh : FreshDraws sub db)
    (unused : sub.scope.bind db.idempotencyRecords.get = none) :
    ∃ after, createJob sub db = (after, .accepted sub.jobUuid) := by
  obtain ⟨opened, ho⟩ := exists_openJob fresh unused
  obtain ⟨after, persisted⟩ := exists_persistTasks fresh (openJob_domains ho) (openJob_spec ho).2.1
  exact ⟨after, by simp only [createJob, ho, persisted]⟩

/-- With a used one the stored record decides, and nothing is written. -/
theorem createJob_of_used {existing : IdempotencyRecord}
    (used : sub.scope.bind db.idempotencyRecords.get = some existing) :
    createJob sub db = (db, if existing.requestHash = sub.requestHash then .replayed existing.jobId
      else .conflict) := by
  have refused : openJob sub db = none := by
    rw [Option.eq_none_iff_forall_not_mem]
    intro opened ho
    have free := (openJob_spec ho).2.2
    rw [used] at free
    cases free
  simp only [createJob, refused, used]
  split <;> rfl

theorem accepted_domainIds {after : Db} (fresh : FreshDraws sub db)
    (h : createJob sub db = (after, .accepted sub.jobUuid)) {d : Domain} (hd : d ∈ after.domains.rows) :
    d.id ∈ db.domains.rows.map Domain.id ∨ ∃ name ∈ sub.allDomainStrs, d.id = sub.domainUuid name := by
  obtain ⟨⟨domains, created, kept⟩, _⟩ := accepted_spec h
  obtain ⟨row, hrow, same⟩ := kept d hd
  obtain ⟨table, inserted, rows⟩ := createMissingDomains_fresh fresh.domains fresh.domainsInjective
  rw [created] at inserted
  cases Option.some.inj inserted
  rw [rows] at hrow
  rw [← same]
  rcases List.mem_append.mp hrow with old | new
  · exact Or.inl (List.mem_map_of_mem old)
  · obtain ⟨name, hn, rfl⟩ := List.mem_map.mp new
    exact Or.inr ⟨name, (List.mem_filter.mp hn).1, rfl⟩

theorem accepted_taskIds {after : Db} (h : createJob sub db = (after, .accepted sub.jobUuid)) {t : Task}
    (ht : t ∈ after.tasks.rows) : t ∈ db.tasks.rows ∨ ∃ n, t.id = sub.taskUuid n := by
  obtain ⟨_, known, valid, invalid, hv, hi, tasks⟩ := accepted_spec h
  rw [tasks] at ht
  rcases List.mem_append.mp ht with old | new
  · exact Or.inl old
  · exact Or.inr (taskId_of_built hv hi new)

theorem accepted_jobs {after : Db} (h : createJob sub db = (after, .accepted sub.jobUuid)) :
    after.jobs.rows = db.jobs.rows ++ [sub.jobRow] := by
  obtain ⟨_, opened, ho, hp⟩ := createJob_accepted h
  rw [(persistTasks_spec hp).1]
  exact Table.insert_rows (openJob_spec ho).1

/-- An accepted request stores its record under its scope. -/
theorem accepted_records {after : Db} (h : createJob sub db = (after, .accepted sub.jobUuid))
    (scope : String × String) : after.idempotencyRecords.get scope = (db.idempotencyRecords.get scope).or
      (if sub.scope = some scope then some (sub.recordRow scope) else none) := by
  obtain ⟨_, opened, ho, hp⟩ := createJob_accepted h
  rw [(persistTasks_spec hp).2.1]
  obtain ⟨_, records, _, rfl, ⟨plain, same⟩ | ⟨used, hs, hr⟩⟩ := openJob_cases ho
  · rw [plain, same, if_neg (by simp), Option.or_none]
  · have found : ([sub.recordRow used].find? fun row => decide (row.scope = scope)) =
        if sub.scope = some scope then some (sub.recordRow scope) else none := by
      by_cases same : used = scope
      · subst same
        rw [if_pos hs]
        exact List.find?_cons_of_pos (decide_eq_true rfl)
      · have other : ¬sub.scope = some scope := by
          rw [hs, Option.some.injEq]
          exact same
        rw [if_neg other]
        have skipped : ¬decide ((sub.recordRow used).scope = scope) = true := by
          rw [decide_eq_true_eq]
          exact same
        exact List.find?_cons_of_neg skipped
    rw [← found]
    exact Table.get_insert hr scope

end Single

/-- A POST /jobs request with its headers, and what the service draws for it. -/
structure Post where
  isShuttingDown : Bool
  domains : List PyStr
  idempotencyKey : Option String
  clientId : Option String
  xRequestId : Option String
  requestUuid : String
  draws : RequestDraws

namespace Post

/-- The request id of `RequestIDMiddleware.dispatch`. -/
def requestId (p : Post) : String :=
  match p.xRequestId with
  | none => "req-" ++ p.requestUuid
  | some header => if header = "" then "req-" ++ p.requestUuid else header

def request (p : Post) : PyCreateJobRequest := ⟨p.domains, p.idempotencyKey, p.clientId, p.requestId⟩

def carries (clientId : String) (p : Post) : Bool := decide (p.clientId = some clientId)

/-- The request gets past the checks before the `try` block. -/
def admitted (settings : AppSettings) (p : Post) : Bool :=
  !p.isShuttingDown && decide (p.domains ≠ [] ∧ p.domains.length ≤ settings.maxDomainsPerRequest)

def refusal (settings : AppSettings) (p : Post) : HttpException :=
  if p.isShuttingDown then ⟨503, "Service is shutting down"⟩
  else if p.domains = [] then ⟨400, "domains list cannot be empty"⟩
  else ⟨413, s!"maximum {settings.maxDomainsPerRequest} domains per request"⟩

/-- The effective client id with the key, when there is one. -/
def scope (p : Post) : Option (String × String) := p.request.scope

/-- The request asks for the record of the scope. -/
def keyed (settings : AppSettings) (scope : String × String) (p : Post) : Bool :=
  p.admitted settings && decide (p.scope = some scope)

/-- The database takes the texts that the request would store. -/
def storable (text : PythonText) (p : Post) : Bool := decide (∀ s ∈ p.request.sentTexts text, s.Storable)

/-- The request stores the record of the scope, unless there is one. -/
def occupies (settings : AppSettings) (text : PythonText) (scope : String × String) (p : Post) : Bool :=
  p.keyed settings scope && p.storable text

end Post

section Sequences

variable (settings : AppSettings) (text : PythonText) (sha256 : String → String)

def Post.submission (p : Post) : Submission := p.request.submission text sha256 p.draws

/-- The responses to requests that are handled one after the other. -/
def postAll : Db → List Post → List (Except HttpException JobResponse)
  | _, [] => []
  | db, p :: rest =>
    let result := postJobsStoring settings text sha256 p.isShuttingDown p.request p.draws db
    result.2 :: postAll result.1 rest

/-- The response by the requests before: the first one with the scope decides. -/
def respond (done : List Post) (p : Post) : Except HttpException JobResponse :=
  if p.admitted settings then
    match p.scope.bind fun scope => done.find? (Post.occupies settings text scope) with
    | none => .ok (if p.storable text then .accepted p.draws.jobUuid else .failed)
    | some first =>
      if PyStr.computeRequestHash text sha256 first.domains =
          PyStr.computeRequestHash text sha256 p.domains then
        .ok (.replayed first.draws.jobUuid)
      else .ok .conflict
  else .error (p.refusal settings)

def respondAll (done : List Post) : List Post → List (Except HttpException JobResponse)
  | [] => []
  | p :: rest => respond settings text sha256 done p :: respondAll (done ++ [p]) rest

/-- No two of the requests draw the same identifier, and none draws one twice. -/
structure UniqueDraws (posts : List Post) : Prop where
  tasks : ∀ p ∈ posts, Function.Injective p.draws.taskUuid
  domains : ∀ p ∈ posts, ∀ name ∈ (p.submission text sha256).allDomainStrs,
    ∀ name' ∈ (p.submission text sha256).allDomainStrs,
      p.draws.domainUuid name = p.draws.domainUuid name' → name = name'
  apart : posts.Pairwise fun p q => p.draws.jobUuid ≠ q.draws.jobUuid ∧
    (∀ n m, p.draws.taskUuid n ≠ q.draws.taskUuid m) ∧
    ∀ name ∈ (p.submission text sha256).allDomainStrs,
      ∀ name' ∈ (q.submission text sha256).allDomainStrs, p.draws.domainUuid name ≠ q.draws.domainUuid name'

/-- What the database holds after requests on an empty one. -/
structure PostsStored (done : List Post) (db : Db) : Prop where
  jobs : ∀ job ∈ db.jobs.rows, ∃ p ∈ done, job.id = p.draws.jobUuid
  domains : ∀ d ∈ db.domains.rows, ∃ p ∈ done,
    ∃ name ∈ (p.submission text sha256).allDomainStrs, d.id = p.draws.domainUuid name
  tasks : ∀ t ∈ db.tasks.rows, ∃ p ∈ done, ∃ n, t.id = p.draws.taskUuid n
  records : ∀ scope, db.idempotencyRecords.get scope =
    (done.find? (Post.occupies settings text scope)).map fun p => (p.submission text sha256).recordRow scope

end Sequences

section Handled

variable {settings : AppSettings} {text : PythonText} {sha256 : String → String}
variable {done rest : List Post} {p : Post} {db : Db}

theorem postJobsStoring_post : postJobsStoring settings text sha256 p.isShuttingDown p.request p.draws db =
    if p.admitted settings then
      if p.request.keyUsed db = true ∨ p.storable text = true then
        ((createJob (p.submission text sha256) db).1, .ok (createJob (p.submission text sha256) db).2)
      else (db, .ok .failed)
    else (db, .error (p.refusal settings)) := by
  have domains : p.request.domains = p.domains := rfl
  unfold postJobsStoring Post.admitted Post.refusal Post.storable
  rw [domains]
  by_cases down : p.isShuttingDown = true
  · simp [down]
  · by_cases empty : p.domains = []
    · simp [down, empty]
    · by_cases many : p.domains.length > settings.maxDomainsPerRequest
      · have exceeded : ¬p.domains.length ≤ settings.maxDomainsPerRequest := by omega
        simp [down, empty, many, exceeded]
      · have fits : p.domains.length ≤ settings.maxDomainsPerRequest := by omega
        have passed : (!p.isShuttingDown &&
            decide (p.domains ≠ [] ∧ p.domains.length ≤ settings.maxDomainsPerRequest)) = true := by
          simp [down, empty, fits]
        rw [if_neg down, if_neg empty, if_neg many, if_pos passed]
        simp only [decide_eq_true_eq]
        rfl

theorem freshDraws_of_stored (unique : UniqueDraws text sha256 (done ++ p :: rest))
    (stored : PostsStored settings text sha256 done db) : FreshDraws (p.submission text sha256) db := by
  have hp : p ∈ done ++ p :: rest := List.mem_append_right _ List.mem_cons_self
  have apart := fun q hq => (List.pairwise_append.mp unique.apart).2.2 q hq p List.mem_cons_self
  refine ⟨?_, ?_, unique.domains p hp, ?_, unique.tasks p hp⟩
  · rw [Table.get_eq_none_iff]
    intro used
    obtain ⟨job, hjob, same⟩ := List.mem_map.mp used
    obtain ⟨q, hq, id⟩ := stored.jobs job hjob
    exact (apart q hq).1 (id.symm.trans same)
  · intro d hd name hn same
    obtain ⟨q, hq, name', hn', id⟩ := stored.domains d hd
    exact (apart q hq).2.2 name' hn' name hn (id.symm.trans same)
  · intro n
    rw [Table.get_eq_none_iff]
    intro used
    obtain ⟨t, ht, same⟩ := List.mem_map.mp used
    obtain ⟨q, hq, m, id⟩ := stored.tasks t ht
    exact (apart q hq).2.1 m n (id.symm.trans same)

theorem find?_concat (f : Post → Bool) :
    (done ++ [p]).find? f = (done.find? f).or (if f p then some p else none) := by
  rw [List.find?_append]
  congr 1
  cases h : f p <;> simp [h]

/-- A request that writes nothing does not count unless its scope was taken. -/
theorem PostsStored.keep (stored : PostsStored settings text sha256 done db)
    (taken : ∀ scope, p.occupies settings text scope = true →
      (done.find? (Post.occupies settings text scope)).isSome) :
    PostsStored settings text sha256 (done ++ [p]) db := by
  refine ⟨?_, ?_, ?_, ?_⟩
  · intro job hjob
    obtain ⟨q, hq, same⟩ := stored.jobs job hjob
    exact ⟨q, List.mem_append_left _ hq, same⟩
  · intro d hd
    obtain ⟨q, hq, same⟩ := stored.domains d hd
    exact ⟨q, List.mem_append_left _ hq, same⟩
  · intro t ht
    obtain ⟨q, hq, same⟩ := stored.tasks t ht
    exact ⟨q, List.mem_append_left _ hq, same⟩
  · intro scope
    rw [stored.records, find?_concat]
    by_cases occupied : p.occupies settings text scope = true
    · obtain ⟨first, found⟩ := Option.isSome_iff_exists.mp (taken scope occupied)
      rw [found, Option.some_or]
    · rw [if_neg occupied, Option.or_none]

theorem PostsStored.accept {after : Db} (stored : PostsStored settings text sha256 done db)
    (fresh : FreshDraws (p.submission text sha256) db) (admitted : p.admitted settings = true)
    (storable : p.storable text = true)
    (h : createJob (p.submission text sha256) db = (after, .accepted p.draws.jobUuid)) :
    PostsStored settings text sha256 (done ++ [p]) after := by
  have last : p ∈ done ++ [p] := List.mem_append_right _ List.mem_cons_self
  refine ⟨?_, ?_, ?_, ?_⟩
  · intro job hjob
    rw [accepted_jobs h] at hjob
    rcases List.mem_append.mp hjob with old | new
    · obtain ⟨q, hq, same⟩ := stored.jobs job old
      exact ⟨q, List.mem_append_left _ hq, same⟩
    · rw [List.mem_singleton.mp new]
      exact ⟨p, last, rfl⟩
  · intro d hd
    rcases accepted_domainIds fresh h hd with old | ⟨name, hn, same⟩
    · obtain ⟨row, hrow, same⟩ := List.mem_map.mp old
      obtain ⟨q, hq, name, hn, id⟩ := stored.domains row hrow
      exact ⟨q, List.mem_append_left _ hq, name, hn, same.symm.trans id⟩
    · exact ⟨p, last, name, hn, same⟩
  · intro t ht
    rcases accepted_taskIds h ht with old | ⟨n, same⟩
    · obtain ⟨q, hq, n, same⟩ := stored.tasks t old
      exact ⟨q, List.mem_append_left _ hq, n, same⟩
    · exact ⟨p, last, n, same⟩
  · intro scope
    have scopes : (p.submission text sha256).scope = p.scope := rfl
    rw [accepted_records h, stored.records, find?_concat, scopes]
    by_cases same : p.scope = some scope
    · have occupied : p.occupies settings text scope = true := by
        simp [Post.occupies, Post.keyed, admitted, storable, same]
      rw [if_pos same, if_pos occupied]
      cases done.find? (Post.occupies settings text scope) <;> rfl
    · have free : ¬p.occupies settings text scope = true := by simp [Post.occupies, Post.keyed, same]
      rw [if_neg same, if_neg free, Option.or_none, Option.or_none]

/-- What the lookup of a request's record finds. -/
theorem PostsStored.lookup (stored : PostsStored settings text sha256 done db) (p : Post) :
    (p.submission text sha256).scope.bind db.idempotencyRecords.get =
      p.scope.bind fun scope => (done.find? (Post.occupies settings text scope)).map
        fun q => (q.submission text sha256).recordRow scope := by
  have scopes : (p.submission text sha256).scope = p.scope := rfl
  rw [scopes]
  congr 1
  funext scope
  exact stored.records scope

theorem stored_post (unique : UniqueDraws text sha256 (done ++ p :: rest))
    (stored : PostsStored settings text sha256 done db) :
    (postJobsStoring settings text sha256 p.isShuttingDown p.request p.draws db).2 =
        respond settings text sha256 done p ∧
      PostsStored settings text sha256 (done ++ [p])
        (postJobsStoring settings text sha256 p.isShuttingDown p.request p.draws db).1 := by
  have fresh := freshDraws_of_stored unique stored
  have lookup := stored.lookup p
  have used : p.request.keyUsed db =
      ((p.submission text sha256).scope.bind db.idempotencyRecords.get).isSome := rfl
  rw [postJobsStoring_post, respond, used]
  by_cases admitted : p.admitted settings = true
  · rw [if_pos admitted, if_pos admitted]
    cases first : p.scope.bind fun scope => done.find? (Post.occupies settings text scope) with
    | none =>
      have unused : (p.submission text sha256).scope.bind db.idempotencyRecords.get = none := by
        rw [lookup]
        cases hs : p.scope with
        | none => rfl
        | some scope =>
          rw [hs, Option.bind_some] at first
          rw [Option.bind_some, first, Option.map_none]
      rw [unused]
      by_cases storable : p.storable text = true
      · obtain ⟨after, accepted⟩ := createJob_of_unused fresh unused
        rw [if_pos (Or.inr storable), accepted]
        simp only [if_pos storable]
        exact ⟨rfl, stored.accept fresh admitted storable accepted⟩
      · rw [if_neg (by simp [storable])]
        simp only [if_neg storable]
        refine ⟨trivial, stored.keep ?_⟩
        intro scope occupied
        simp [Post.occupies, storable] at occupied
    | some q =>
      obtain ⟨scope, hs, found⟩ := Option.bind_eq_some_iff.mp first
      rw [hs, Option.bind_some, found, Option.map_some] at lookup
      rw [if_pos (Or.inl (by rw [lookup]; rfl)), createJob_of_used lookup]
      refine ⟨?_, stored.keep ?_⟩
      · show Except.ok (if _ = _ then _ else _) = _
        split
        next same => exact (if_pos same).symm
        next different => exact (if_neg different).symm
      · intro other occupied
        simp only [Post.occupies, Post.keyed, Bool.and_eq_true, decide_eq_true_eq] at occupied
        rw [hs] at occupied
        cases Option.some.inj occupied.1.2
        rw [found]
        rfl
  · rw [if_neg admitted, if_neg admitted]
    refine ⟨rfl, stored.keep ?_⟩
    intro scope occupied
    simp [Post.occupies, Post.keyed, admitted] at occupied

theorem stored_empty : PostsStored settings text sha256 [] Db.empty := by
  refine ⟨?_, ?_, ?_, fun _ => rfl⟩
  · intro job hjob
    cases hjob
  · intro d hd
    cases hd
  · intro t ht
    cases ht

/-- The responses of the service are those of the abstract table of scopes. -/
theorem postAll_eq (unique : UniqueDraws text sha256 (done ++ rest))
    (stored : PostsStored settings text sha256 done db) :
    postAll settings text sha256 db rest = respondAll settings text sha256 done rest := by
  induction rest generalizing done db with
  | nil => rfl
  | cons p rest ih =>
    obtain ⟨response, next⟩ := stored_post unique stored
    have later : UniqueDraws text sha256 ((done ++ [p]) ++ rest) := by
      rw [List.append_assoc]
      exact unique
    simp only [postAll, respondAll]
    rw [response, ih later next]

end Handled

/-- The same request, with its own identifiers drawn for it. -/
def Post.SameRequest (p q : Post) : Prop := ∃ draws, q = { p with draws := draws }

/-- The same status code and the same job, up to a renaming of job ids. -/
inductive SameUpTo (same : JobId → JobId → Prop) :
    Except HttpException JobResponse → Except HttpException JobResponse → Prop
  | refused (e : HttpException) : SameUpTo same (.error e) (.error e)
  | accepted {a b : JobId} : same a b → SameUpTo same (.ok (.accepted a)) (.ok (.accepted b))
  | replayed {a b : JobId} : same a b → SameUpTo same (.ok (.replayed a)) (.ok (.replayed b))
  | conflict : SameUpTo same (.ok .conflict) (.ok .conflict)
  | failed : SameUpTo same (.ok .failed) (.ok .failed)

/-- Whenever a request with a client id asks for a scope, the first request to
store the record of the scope, if any so far, carries that client id. -/
def Unshadowed (settings : AppSettings) (text : PythonText) (clientId : String) (posts : List Post) : Prop :=
  ∀ before p after, posts = before ++ p :: after → p.carries clientId = true →
    ∀ scope, p.keyed settings scope = true →
      ∀ first, (before ++ [p]).find? (Post.occupies settings text scope) = some first →
        first.carries clientId = true

section Views

variable (settings : AppSettings) (text : PythonText) (sha256 : String → String) (clientId : String)

/-- The responses, out of those to all requests, that a client receives. -/
def receivedBy (posts : List Post) : List (Except HttpException JobResponse) :=
  ((posts.zip (postAll settings text sha256 .empty posts)).filter fun pair =>
    pair.1.carries clientId).map Prod.snd

def respondTo (done : List Post) : List Post → List (Except HttpException JobResponse)
  | [] => []
  | p :: rest =>
    if p.carries clientId then respond settings text sha256 done p :: respondTo (done ++ [p]) rest
    else respondTo (done ++ [p]) rest

end Views

section Lists

variable {α β : Type*} {R : α → β → Prop} {f : α → Bool} {g : β → Bool}

theorem forall₂_find? {xs : List α} {ys : List β} (h : List.Forall₂ R xs ys)
    (agree : ∀ x y, R x y → f x = g y) : (xs.find? f = none ∧ ys.find? g = none) ∨
      ∃ x y, xs.find? f = some x ∧ ys.find? g = some y ∧ R x y := by
  induction h with
  | nil => exact Or.inl ⟨rfl, rfl⟩
  | @cons x y xs ys hxy _ ih =>
    have same := agree x y hxy
    by_cases found : f x = true
    · right
      refine ⟨x, y, List.find?_cons_of_pos found, List.find?_cons_of_pos ?_, hxy⟩
      rw [← same]
      exact found
    · have skipped : ¬g y = true := by rwa [← same]
      rw [List.find?_cons_of_neg found, List.find?_cons_of_neg skipped]
      exact ih

/-- The first match is also the first among the entries of its kind. -/
theorem find?_filter_of_find? {xs : List α} {x : α} {kind : α → Bool} (h : xs.find? f = some x)
    (own : kind x = true) : (xs.filter kind).find? f = some x := by
  obtain ⟨hf, before, after, rfl, skipped⟩ := List.find?_eq_some_iff_append.mp h
  refine List.find?_eq_some_iff_append.mpr ⟨hf, before.filter kind, after.filter kind, ?_, ?_⟩
  · rw [List.filter_append, List.filter_cons_of_pos own]
  · intro a ha
    exact skipped a (List.mem_filter.mp ha).1

theorem find?_filter_of_none {xs : List α} {kind : α → Bool} (h : xs.find? f = none) :
    (xs.filter kind).find? f = none := by
  rw [List.find?_eq_none] at h ⊢
  intro a ha
  exact h a (List.mem_filter.mp ha).1

end Lists

section Isolation

variable {settings : AppSettings} {text : PythonText} {sha256 : String → String} {clientId : String}
variable {done rest alone aloneRest : List Post} {p q : Post} {same : JobId → JobId → Prop}

theorem receivedBy_respondAll :
    ((rest.zip (respondAll settings text sha256 done rest)).filter fun pair =>
      pair.1.carries clientId).map Prod.snd = respondTo settings text sha256 clientId done rest := by
  induction rest generalizing done with
  | nil => rfl
  | cons p rest ih =>
    simp only [respondAll, respondTo, List.zip_cons_cons, List.filter_cons]
    split
    · rw [List.map_cons, ih]
    · exact ih

theorem Post.SameRequest.admitted (h : p.SameRequest q) : q.admitted settings = p.admitted settings := by
  obtain ⟨draws, rfl⟩ := h
  rfl

theorem Post.SameRequest.scope (h : p.SameRequest q) : q.scope = p.scope := by
  obtain ⟨draws, rfl⟩ := h
  rfl

theorem Post.SameRequest.refusal (h : p.SameRequest q) : q.refusal settings = p.refusal settings := by
  obtain ⟨draws, rfl⟩ := h
  rfl

theorem Post.SameRequest.domains (h : p.SameRequest q) : q.domains = p.domains := by
  obtain ⟨draws, rfl⟩ := h
  rfl

theorem Post.SameRequest.storable (h : p.SameRequest q) : q.storable text = p.storable text := by
  obtain ⟨draws, rfl⟩ := h
  rfl

theorem Post.SameRequest.occupies (h : p.SameRequest q) (scope : String × String) :
    p.occupies settings text scope = q.occupies settings text scope := by
  rw [Post.occupies, Post.occupies, Post.keyed, Post.keyed, h.admitted, h.scope, h.storable]

/-- A request whose scope was first used by its own client is answered as if
there were no other client. -/
theorem respond_alone (pairs : List.Forall₂ (fun p q => p.SameRequest q ∧ same p.draws.jobUuid q.draws.jobUuid)
      (done.filter (Post.carries clientId)) alone)
    (request : p.SameRequest q) (drawn : same p.draws.jobUuid q.draws.jobUuid)
    (own : ∀ scope, p.keyed settings scope = true →
      ∀ first, done.find? (Post.occupies settings text scope) = some first → first.carries clientId = true) :
    SameUpTo same (respond settings text sha256 done p) (respond settings text sha256 alone q) := by
  have fresh : SameUpTo same (.ok (if p.storable text then .accepted p.draws.jobUuid else .failed))
      (.ok (if p.storable text then .accepted q.draws.jobUuid else .failed)) := by
    split
    · exact .accepted drawn
    · exact .failed
  unfold respond
  rw [request.admitted, request.scope, request.refusal, request.domains, request.storable]
  by_cases admitted : p.admitted settings = true
  · rw [if_pos admitted, if_pos admitted]
    cases hs : p.scope with
    | none => exact fresh
    | some scope =>
      have keyed : p.keyed settings scope = true := by simp [Post.keyed, admitted, hs]
      simp only [Option.bind_some]
      rcases forall₂_find? pairs fun x y h => h.1.occupies scope with ⟨none_own, none_alone⟩ | found
      · have unused : done.find? (Post.occupies settings text scope) = none := by
          cases found : done.find? (Post.occupies settings text scope) with
          | none => rfl
          | some first =>
            rw [find?_filter_of_find? found (own scope keyed first found)] at none_own
            cases none_own
        rw [unused, none_alone]
        exact fresh
      · obtain ⟨x, y, hx, hy, again, paired⟩ := found
        have first : done.find? (Post.occupies settings text scope) = some x := by
          cases found : done.find? (Post.occupies settings text scope) with
          | none =>
            rw [find?_filter_of_none found] at hx
            cases hx
          | some first =>
            rwa [find?_filter_of_find? found (own scope keyed first found)] at hx
        rw [first, hy]
        simp only [again.domains]
        split
        · exact .replayed paired
        · exact .conflict
  · rw [if_neg admitted, if_neg admitted]
    exact .refused _

/-- A request whose scope only others have used gets another answer alone. -/
theorem respond_shadowed {scope : String × String} {first : Post} (request : p.SameRequest q)
    (keyed : p.keyed settings scope = true)
    (taken : done.find? (Post.occupies settings text scope) = some first)
    (unused : alone.find? (Post.occupies settings text scope) = none) :
    ¬SameUpTo same (respond settings text sha256 done p) (respond settings text sha256 alone q) := by
  simp only [Post.keyed, Bool.and_eq_true, decide_eq_true_eq] at keyed
  obtain ⟨admitted, hs⟩ := keyed
  intro h
  unfold respond at h
  rw [request.admitted, request.scope, if_pos admitted, if_pos admitted] at h
  simp only [hs, Option.bind_some, taken, unused] at h
  split at h
  · split at h
    · cases h
    · cases h
  · split at h
    · cases h
    · cases h

section Pairs

variable {R : Post → Post → Prop} (pairs : List.Forall₂ R (done.filter (Post.carries clientId)) alone)

include pairs

theorem pairs_concat_own (own : p.carries clientId = true) (h : R p q) :
    List.Forall₂ R ((done ++ [p]).filter (Post.carries clientId)) (alone ++ [q]) := by
  rw [List.filter_append, List.filter_cons_of_pos own]
  exact List.rel_append pairs (.cons h .nil)

theorem pairs_concat_other (other : ¬p.carries clientId = true) :
    List.Forall₂ R ((done ++ [p]).filter (Post.carries clientId)) alone := by
  rw [List.filter_append, List.filter_cons_of_neg other]
  simpa using pairs

end Pairs

theorem respondTo_alone (pairs : List.Forall₂ (fun p q => p.SameRequest q ∧ same p.draws.jobUuid q.draws.jobUuid)
      (done.filter (Post.carries clientId)) alone)
    (morePairs : List.Forall₂ (fun p q => p.SameRequest q ∧ same p.draws.jobUuid q.draws.jobUuid)
      (rest.filter (Post.carries clientId)) aloneRest)
    (unshadowed : ∀ before p after, rest = before ++ p :: after → p.carries clientId = true →
      ∀ scope, p.keyed settings scope = true →
        ∀ first, (done ++ before ++ [p]).find? (Post.occupies settings text scope) = some first →
          first.carries clientId = true) :
    List.Forall₂ (SameUpTo same) (respondTo settings text sha256 clientId done rest)
      (respondAll settings text sha256 alone aloneRest) := by
  induction rest generalizing done alone aloneRest with
  | nil =>
    cases morePairs
    exact .nil
  | cons p rest ih =>
    have later : ∀ before r after, rest = before ++ r :: after → r.carries clientId = true →
        ∀ scope, r.keyed settings scope = true →
          ∀ first, (done ++ [p] ++ before ++ [r]).find? (Post.occupies settings text scope) = some first →
            first.carries clientId = true := by
      intro before r after parts own scope keyed first found
      refine unshadowed (p :: before) r after (congrArg (p :: ·) parts) own scope keyed first ?_
      rwa [List.append_cons done p before]
    unfold respondTo
    by_cases own : p.carries clientId = true
    · rw [List.filter_cons_of_pos own] at morePairs
      cases morePairs with
      | @cons _ q _ _ first others =>
        rw [if_pos own, respondAll]
        refine .cons (respond_alone pairs first.1 first.2 ?_) (ih (pairs_concat_own pairs own first) others later)
        intro scope keyed x found
        refine unshadowed [] p rest rfl own scope keyed x ?_
        rw [List.append_nil, List.find?_append, found, Option.some_or]
    · rw [List.filter_cons_of_neg own] at morePairs
      rw [if_neg own]
      exact ih (pairs_concat_other pairs own) morePairs later

theorem unused_alone {scope : String × String}
    (pairs : List.Forall₂ Post.SameRequest (done.filter (Post.carries clientId)) alone)
    (free : ∀ r ∈ done, r.carries clientId = true → ¬r.occupies settings text scope = true) :
    alone.find? (Post.occupies settings text scope) = none := by
  rcases forall₂_find? pairs fun x y h => h.occupies scope with ⟨_, none_alone⟩ | ⟨x, _, hx, _⟩
  · exact none_alone
  · have listed := List.mem_filter.mp (List.mem_of_find?_eq_some hx)
    exact absurd (List.find?_some hx) (free x listed.1 listed.2)

/-- After another client has stored the record of a scope, no request of this one
that asks for the scope is answered as if it were alone. -/
theorem shadowed_respondTo {scope : String × String} {before after : List Post}
    (pairs : List.Forall₂ Post.SameRequest (done.filter (Post.carries clientId)) alone)
    (morePairs : List.Forall₂ Post.SameRequest ((before ++ p :: after).filter (Post.carries clientId)) aloneRest)
    (free : ∀ r ∈ done, r.carries clientId = true → ¬r.occupies settings text scope = true)
    (own : p.carries clientId = true) (keyed : p.keyed settings scope = true)
    {first : Post} (found : (done ++ before).find? (Post.occupies settings text scope) = some first)
    (other : ¬first.carries clientId = true) :
    ¬List.Forall₂ (SameUpTo same) (respondTo settings text sha256 clientId done (before ++ p :: after))
      (respondAll settings text sha256 alone aloneRest) := by
  intro h
  induction before generalizing done alone aloneRest with
  | nil =>
    rw [List.append_nil] at found
    rw [List.nil_append, List.filter_cons_of_pos own] at morePairs
    cases morePairs with
    | @cons _ q _ _ request others =>
      rw [List.nil_append, respondTo, if_pos own, respondAll] at h
      cases h with
      | cons head _ => exact respond_shadowed request keyed found (unused_alone pairs free) head
  | cons r before ih =>
    rw [List.append_cons] at found
    rw [List.cons_append] at h morePairs
    unfold respondTo at h
    by_cases mine : r.carries clientId = true
    · rw [List.filter_cons_of_pos mine] at morePairs
      rw [if_pos mine] at h
      cases morePairs with
      | @cons _ q _ _ request others =>
        rw [respondAll] at h
        cases h with
        | cons head tail =>
          refine ih (pairs_concat_own pairs mine request) others ?_ found tail
          rw [List.forall_mem_append]
          refine ⟨free, List.forall_mem_singleton.mpr fun _ occupied => ?_⟩
          have asks : r.keyed settings scope = true := (Bool.and_eq_true_iff.mp occupied).1
          cases taken : done.find? (Post.occupies settings text scope) with
          | some x => exact respond_shadowed request asks taken (unused_alone pairs free) head
          | none =>
            rw [List.find?_append, find?_concat, taken, Option.none_or, if_pos occupied, Option.some_or] at found
            cases Option.some.inj found
            exact other mine
    · rw [List.filter_cons_of_neg mine] at morePairs
      rw [if_neg mine] at h
      refine ih (pairs_concat_other pairs mine) morePairs ?_ found h
      rw [List.forall_mem_append]
      exact ⟨free, List.forall_mem_singleton.mpr fun own => absurd own mine⟩

theorem UniqueDraws.nodup {posts : List Post} (unique : UniqueDraws text sha256 posts) :
    (posts.map fun p => p.draws.jobUuid).Nodup := by
  rw [List.nodup_iff_pairwise_ne, List.pairwise_map]
  exact unique.apart.imp fun h => h.1

/-- Entries of the same position in two lists without repetitions. -/
theorem biUnique_zip {α β : Type*} {xs : List α} {ys : List β} (hx : xs.Nodup) (hy : ys.Nodup) :
    Relator.BiUnique fun a b => (a, b) ∈ xs.zip ys := by
  have at_index : ∀ {a b}, (a, b) ∈ xs.zip ys → ∃ i : Nat, xs[i]? = some a ∧ ys[i]? = some b := by
    intro a b h
    obtain ⟨i, hi⟩ := List.mem_iff_getElem?.mp h
    exact ⟨i, List.getElem?_zip_eq_some.mp hi⟩
  constructor
  · intro a b c ha hb
    obtain ⟨i, hia, hic⟩ := at_index ha
    obtain ⟨j, hjb, hjc⟩ := at_index hb
    have position : i = j := by
      have bound := (List.getElem?_eq_some_iff.mp hic).1
      exact (List.getElem?_inj bound hy).mp (hic.trans hjc.symm)
    rw [position, hjb] at hia
    exact (Option.some.inj hia).symm
  · intro a b c hb hc
    obtain ⟨i, hia, hib⟩ := at_index hb
    obtain ⟨j, hja, hjc⟩ := at_index hc
    have position : i = j := by
      have bound := (List.getElem?_eq_some_iff.mp hia).1
      exact (List.getElem?_inj bound hx).mp (hia.trans hja.symm)
    rw [position, hjc] at hib
    exact (Option.some.inj hib).symm

/-- A client is served as if it were alone exactly when the first request of
each of its scopes is its own. -/
theorem client_isolated_iff {posts : List Post} (unique : UniqueDraws text sha256 posts)
    (uniqueAlone : UniqueDraws text sha256 alone)
    (again : List.Forall₂ Post.SameRequest (posts.filter (Post.carries clientId)) alone) :
    (∃ same : JobId → JobId → Prop, Relator.BiUnique same ∧
      List.Forall₂ (SameUpTo same) (receivedBy settings text sha256 clientId posts)
        (postAll settings text sha256 .empty alone)) ↔
    Unshadowed settings text clientId posts := by
  have full : receivedBy settings text sha256 clientId posts =
      respondTo settings text sha256 clientId [] posts := by
    rw [receivedBy, @postAll_eq settings text sha256 [] posts .empty unique stored_empty]
    exact receivedBy_respondAll
  rw [full, @postAll_eq settings text sha256 [] alone .empty uniqueAlone stored_empty]
  constructor
  · rintro ⟨same, _, responses⟩ before p after rfl own scope keyed first found
    by_contra other
    have earlier : before.find? (Post.occupies settings text scope) = some first := by
      rw [find?_concat] at found
      cases inside : before.find? (Post.occupies settings text scope) with
      | some x => rwa [inside, Option.some_or] at found
      | none =>
        rw [inside, Option.none_or] at found
        split at found
        · cases Option.some.inj found
          exact absurd own other
        · cases found
    exact shadowed_respondTo .nil again (by simp) own keyed earlier other responses
  · intro unshadowed
    let own := posts.filter (Post.carries clientId)
    let drawn := own.map fun p => p.draws.jobUuid
    let redrawn := alone.map fun p => p.draws.jobUuid
    have nodup : drawn.Nodup := unique.nodup.sublist (List.filter_sublist.map _)
    refine ⟨fun a b => (a, b) ∈ drawn.zip redrawn, biUnique_zip nodup uniqueAlone.nodup, ?_⟩
    refine respondTo_alone .nil ?_ unshadowed
    obtain ⟨lengths, requests⟩ := List.forall₂_iff_zip.mp again
    refine List.forall₂_iff_zip.mpr ⟨lengths, fun {p q} pair => ⟨requests pair, ?_⟩⟩
    show (p.draws.jobUuid, q.draws.jobUuid) ∈ (own.map _).zip (alone.map _)
    rw [List.zip_map]
    exact List.mem_map.mpr ⟨(p, q), pair, rfl⟩

end Isolation

/-- The identifiers that end in the digit `n`. -/
def digitDraws (n : Nat) : RequestDraws := ⟨0, n, n, fun _ => n, fun k => 10 * k + n⟩

def keyedPost (clientId xRequestId : Option String) (n : Nat) : Post :=
  { isShuttingDown := false, domains := [.ofString "c.d"], idempotencyKey := some "k", clientId := clientId,
    xRequestId := xRequestId, requestUuid := "u", draws := digitDraws n }

theorem uniqueDraws_keyedPosts {posts : List ((Option String × Option String) × Nat)}
    (digits : ∀ p ∈ posts, p.2 < 10) (distinct : (posts.map Prod.snd).Nodup) :
    UniqueDraws asciiText id (posts.map fun p => keyedPost p.1.1 p.1.2 p.2) := by
  have names : ∀ clientId xRequestId n,
      ((keyedPost clientId xRequestId n).submission asciiText id).allDomainStrs = ["c.d"] := by
    intro clientId xRequestId n
    show (plainSubmission 0 (deduplicatedResults asciiText (validResults (["c.d"].map (normalizeDomain
      asciiText)))) (invalidResults (["c.d"].map (normalizeDomain asciiText)))).allDomainStrs = ["c.d"]
    decide +kernel
  refine ⟨?_, ?_, ?_⟩
  · intro p hp k k' same
    obtain ⟨q, _, rfl⟩ := List.mem_map.mp hp
    have sum : 10 * k + q.2 = 10 * k' + q.2 := same
    omega
  · intro p hp name hn name' hn' _
    obtain ⟨q, _, rfl⟩ := List.mem_map.mp hp
    rw [names, List.mem_singleton] at hn hn'
    rw [hn, hn']
  · rw [List.pairwise_map]
    rw [List.nodup_iff_pairwise_ne, List.pairwise_map] at distinct
    refine distinct.imp_of_mem fun {p q} hp hq different => ?_
    have low := digits p hp
    have low' := digits q hq
    refine ⟨different, ?_, fun _ _ _ _ => different⟩
    intro k k' same
    have sum : 10 * k + p.2 = 10 * k' + q.2 := same
    omega

/-- A request of no client takes the key of the client whose id it carries as
its request id. -/
def shadowingPosts : List Post := [keyedPost none (some "b") 1, keyedPost (some "b") none 2]

def shadowedPosts : List Post := [keyedPost (some "b") none 2]

theorem client_isolated_shadowed : UniqueDraws asciiText id shadowingPosts ∧
    UniqueDraws asciiText id shadowedPosts ∧
    List.Forall₂ Post.SameRequest (shadowingPosts.filter (Post.carries "b")) shadowedPosts ∧
    receivedBy .defaults asciiText id "b" shadowingPosts = [.ok (.replayed 1)] ∧
    postAll .defaults asciiText id .empty shadowedPosts = [.ok (.accepted 2)] ∧
    ¬∃ same : JobId → JobId → Prop, Relator.BiUnique same ∧
      List.Forall₂ (SameUpTo same) (receivedBy .defaults asciiText id "b" shadowingPosts)
        (postAll .defaults asciiText id .empty shadowedPosts) := by
  have received : receivedBy .defaults asciiText id "b" shadowingPosts = [.ok (.replayed 1)] := by
    decide +kernel
  have alone : postAll .defaults asciiText id .empty shadowedPosts = [.ok (.accepted 2)] := by
    decide +kernel
  refine ⟨@uniqueDraws_keyedPosts [((none, some "b"), 1), ((some "b", none), 2)] (by decide) (by decide),
    @uniqueDraws_keyedPosts [((some "b", none), 2)] (by decide) (by decide), ?_, received, alone, ?_⟩
  · exact .cons ⟨digitDraws 2, rfl⟩ .nil
  · rintro ⟨same, _, responses⟩
    rw [received, alone] at responses
    cases responses with
    | cons head _ => cases head

/-- The client has used its key before, and sends its request once more. -/
def retriedPosts : List Post :=
  [keyedPost (some "b") none 2, keyedPost none (some "b") 1, keyedPost (some "b") none 3]

def retriedAlone : List Post := [keyedPost (some "b") none 4, keyedPost (some "b") none 5]

theorem client_isolated_retried : ∃ same : JobId → JobId → Prop, Relator.BiUnique same ∧
    List.Forall₂ (SameUpTo same) (receivedBy .defaults asciiText id "b" retriedPosts)
      (postAll .defaults asciiText id .empty retriedAlone) := by
  have unique : UniqueDraws asciiText id retriedPosts := @uniqueDraws_keyedPosts
    [((some "b", none), 2), ((none, some "b"), 1), ((some "b", none), 3)] (by decide) (by decide)
  have uniqueAlone : UniqueDraws asciiText id retriedAlone := @uniqueDraws_keyedPosts
    [((some "b", none), 4), ((some "b", none), 5)] (by decide) (by decide)
  have again : List.Forall₂ Post.SameRequest (retriedPosts.filter (Post.carries "b")) retriedAlone :=
    .cons ⟨digitDraws 4, rfl⟩ (.cons ⟨digitDraws 5, rfl⟩ .nil)
  refine (client_isolated_iff unique uniqueAlone again).mpr ?_
  intro before p after parts _ scope keyed first found
  have scopes : ∀ p ∈ retriedPosts, p.scope = some ("b", "k") := by decide +kernel
  have head : retriedPosts.find? (Post.occupies .defaults asciiText ("b", "k")) =
      some (keyedPost (some "b") none 2) := List.find?_cons_of_pos (by decide +kernel)
  have listed : p ∈ retriedPosts := parts ▸ List.mem_append_right _ List.mem_cons_self
  simp only [Post.keyed, Bool.and_eq_true, decide_eq_true_eq] at keyed
  rw [scopes p listed] at keyed
  cases Option.some.inj keyed.2
  rw [parts, List.append_cons, List.find?_append, found, Option.some_or] at head
  cases Option.some.inj head
  decide

/-- A request that the database refuses leaves its key to the next one. -/
example : postAll .defaults asciiText id .empty
    [{ keyedPost (some "b") none 1 with domains := [.ofString "a\x00.b"] }, keyedPost none (some "b") 2,
      keyedPost (some "b") none 3] = [.ok .failed, .ok (.accepted 2), .ok (.replayed 2)] := by
  decide +kernel

end DomainProcessing
