import DomainProcessing.JobSubmission
import DomainProcessing.ServiceRuns

namespace DomainProcessing

open Tables Runs

/-- The unique index of `domain`, and how the code keeps `deactivated_at`. -/
structure DomainsOk (domains : List Domain) : Prop where
  names : (domains.map Domain.normalizedDomain).Nodup
  active : ∀ d ∈ domains, d.isActive = true → d.deactivatedAt = none

section Lookup

variable {domains : List Domain} {name : String} {d : Domain} {sub : Submission}

theorem findDomain_eq_some_iff (names : (domains.map Domain.normalizedDomain).Nodup) :
    findDomain domains name = some d ↔ d ∈ domains ∧ d.normalizedDomain = name := by
  constructor
  · intro h
    exact ⟨List.mem_of_find?_eq_some h, by simpa using List.find?_some h⟩
  · rintro ⟨hd, rfl⟩
    cases hf : findDomain domains d.normalizedDomain with
    | none => simpa using List.find?_eq_none.mp hf d hd
    | some e =>
      have same : e.normalizedDomain = d.normalizedDomain := by simpa using List.find?_some hf
      rw [List.inj_on_of_nodup_map names (List.mem_of_find?_eq_some hf) hd same]

theorem findDomain_isNone_iff :
    (findDomain domains name).isNone ↔ name ∉ domains.map Domain.normalizedDomain := by
  simp [findDomain, List.find?_eq_none]

theorem mem_reactivatedIds (names : (domains.map Domain.normalizedDomain).Nodup) {id : DomainId} :
    id ∈ reactivatedIds sub domains ↔ ∃ d ∈ domains, d.id = id ∧ d.isActive = false ∧
      d.normalizedDomain ∈ sub.finalValidDomains.map NormalizedDomain.value := by
  simp only [reactivatedIds, List.mem_filterMap, Option.map_eq_some_iff, Option.filter_eq_some_iff,
    findDomain_eq_some_iff names, List.mem_map, Bool.not_eq_true']
  constructor
  · rintro ⟨n, hn, d, ⟨⟨hd, hname⟩, inactive⟩, hid⟩
    exact ⟨d, hd, hid, inactive, n, hn, hname.symm⟩
  · rintro ⟨d, hd, hid, inactive, n, hn, hname⟩
    exact ⟨n, hn, d, ⟨⟨hd, hname.symm⟩, inactive⟩, hid⟩

end Lookup

/-- What ingestion makes of a domain row that was there before. -/
def reactivatedRow (values : List String) (now : Instant) (d : Domain) : Domain :=
  if d.isActive = false ∧ d.normalizedDomain ∈ values then
    { d with isActive := true, deactivatedAt := none, updatedAt := now }
  else d

section RowFacts

variable (values : List String) (now : Instant) (d : Domain)

@[simp] theorem reactivatedRow_id : (reactivatedRow values now d).id = d.id := by
  unfold reactivatedRow
  split <;> rfl

@[simp] theorem reactivatedRow_name :
    (reactivatedRow values now d).normalizedDomain = d.normalizedDomain := by
  unfold reactivatedRow
  split <;> rfl

theorem reactivatedRow_of_active (h : d.isActive = true) : reactivatedRow values now d = d := by
  unfold reactivatedRow
  rw [if_neg]
  rintro ⟨inactive, _⟩
  simp [h] at inactive

theorem reactivatedRow_active (h : d.normalizedDomain ∈ values) :
    (reactivatedRow values now d).isActive = true := by
  unfold reactivatedRow
  split
  next => rfl
  next hn => simpa [h] using hn

theorem reactivatedRow_deactivatedAt (h : d.isActive = true → d.deactivatedAt = none)
    (active : (reactivatedRow values now d).isActive = true) :
    (reactivatedRow values now d).deactivatedAt = none := by
  unfold reactivatedRow at active ⊢
  split at active
  next hc => rw [if_pos hc]
  next hc => rw [if_neg hc]; exact h active

end RowFacts

/-- The domain and detail tables after an ingestion, from those before it. -/
structure DomainsWritten (values names : List String) (now : Instant) (db after : Db) : Prop where
  rows : ∃ created, after.domains.rows = db.domains.rows.map (reactivatedRow values now) ++ created ∧
    (∀ d ∈ created, d.isActive = true ∧ d.deactivatedAt = none) ∧
    (created.map Domain.normalizedDomain).Nodup ∧
    ∀ name, name ∈ created.map Domain.normalizedDomain ↔
      name ∈ names ∧ name ∉ db.domains.rows.map Domain.normalizedDomain
  details : ∀ detail, detail ∈ after.details.rows ↔ detail ∈ db.details.rows ∧
    ¬∃ d ∈ db.domains.rows, d.id = detail.domainId ∧ d.isActive = false ∧
      d.normalizedDomain ∈ values

theorem createMissingDomains_rows {sub : Submission} {domains after : Table Domain.id}
    (h : createMissingDomains sub domains = some after) :
    ∃ missing : List String, after.rows = domains.rows ++ missing.map sub.domainRow ∧ missing.Nodup ∧
      ∀ name, name ∈ missing ↔
        name ∈ sub.allDomainStrs ∧ name ∉ domains.rows.map Domain.normalizedDomain := by
  refine ⟨_, Table.insert_rows h, (List.nodup_dedup _).filter _, ?_⟩
  intro name
  rw [List.mem_filter, findDomain_isNone_iff]

theorem map_domainRow (sub : Submission) (missing : List String) :
    (missing.map sub.domainRow).map Domain.normalizedDomain = missing := by
  rw [List.map_map]
  exact List.map_id _

/-- New names keep the unique index. -/
theorem names_nodup_append {sub : Submission} {rows : List Domain} {missing : List String}
    (names : (rows.map Domain.normalizedDomain).Nodup) (nodup : missing.Nodup)
    (new : ∀ name ∈ missing, name ∉ rows.map Domain.normalizedDomain) :
    ((rows ++ missing.map sub.domainRow).map Domain.normalizedDomain).Nodup := by
  rw [List.map_append, map_domainRow]
  refine names.append nodup ?_
  intro name hold hnew
  exact new name hnew hold

theorem persistTasks_domains {sub : Submission} {db after : Db}
    (names : (db.domains.rows.map Domain.normalizedDomain).Nodup)
    (h : persistTasks sub db = some after) :
    DomainsWritten (sub.finalValidDomains.map NormalizedDomain.value) sub.allDomainStrs sub.now db
      after := by
  obtain ⟨domains, _, _, _, hdomains, _, _, _, rfl⟩ := persistTasks_cases h
  obtain ⟨missing, hrows, nodup, hmissing⟩ := createMissingDomains_rows hdomains
  have allNames : (domains.rows.map Domain.normalizedDomain).Nodup := by
    rw [hrows]
    exact names_nodup_append names nodup fun name hn => ((hmissing name).mp hn).2
  have chosen : ∀ d ∈ domains.rows, d.id ∈ reactivatedIds sub domains.rows ↔
      d.isActive = false ∧ d.normalizedDomain ∈ sub.finalValidDomains.map NormalizedDomain.value := by
    intro d hd
    rw [mem_reactivatedIds allNames]
    constructor
    · rintro ⟨e, he, hid, inactive, hv⟩
      cases Table.eq_of_key he hd hid
      exact ⟨inactive, hv⟩
    · exact fun ⟨inactive, hv⟩ => ⟨d, hd, rfl, inactive, hv⟩
  have rewritten : (reactivate sub { db with domains := domains }).domains.rows =
      domains.rows.map (reactivatedRow (sub.finalValidDomains.map NormalizedDomain.value) sub.now) := by
    refine List.map_congr_left fun d hd => ?_
    exact if_congr (chosen d hd) rfl rfl
  have untouched : (missing.map sub.domainRow).map
      (reactivatedRow (sub.finalValidDomains.map NormalizedDomain.value) sub.now) =
        missing.map sub.domainRow := by
    rw [List.map_map]
    exact List.map_congr_left fun name _ => reactivatedRow_of_active _ _ _ rfl
  constructor
  · refine ⟨missing.map sub.domainRow, ?_, ?_, ?_, ?_⟩
    · rw [← untouched, ← List.map_append, ← hrows]
      exact rewritten
    · intro d hd
      obtain ⟨name, _, rfl⟩ := List.mem_map.mp hd
      exact ⟨rfl, rfl⟩
    · rw [map_domainRow]
      exact nodup
    · rw [map_domainRow]
      exact hmissing
  · intro detail
    have kept : detail ∈ (reactivate sub { db with domains := domains }).details.rows ↔
        detail ∈ db.details.rows ∧ detail.domainId ∉ reactivatedIds sub domains.rows := by
      simp [reactivate, Table.delete]
    refine kept.trans (and_congr_right fun _ => not_congr ?_)
    rw [mem_reactivatedIds allNames]
    constructor
    · rintro ⟨d, hd, hid, inactive, hv⟩
      rw [hrows] at hd
      rcases List.mem_append.mp hd with hold | hnew
      · exact ⟨d, hold, hid, inactive, hv⟩
      · obtain ⟨name, _, rfl⟩ := List.mem_map.mp hnew
        cases inactive
    · rintro ⟨d, hd, rest⟩
      exact ⟨d, hrows ▸ List.mem_append_left _ hd, rest⟩

section Written

variable {values names : List String} {now : Instant} {db after : Db}

theorem DomainsWritten.domainsOk (h : DomainsWritten values names now db after)
    (ok : DomainsOk db.domains.rows) : DomainsOk after.domains.rows := by
  obtain ⟨created, hrows, fresh, nodup, hnames⟩ := h.rows
  constructor
  · have same : (db.domains.rows.map (reactivatedRow values now)).map Domain.normalizedDomain =
        db.domains.rows.map Domain.normalizedDomain := by
      rw [List.map_map]
      exact List.map_congr_left fun d _ => reactivatedRow_name values now d
    rw [hrows, List.map_append, same]
    refine ok.names.append nodup ?_
    intro name hold hnew
    exact ((hnames name).mp hnew).2 hold
  · intro d hd active
    rw [hrows] at hd
    rcases List.mem_append.mp hd with hold | hnew
    · obtain ⟨old, ho, rfl⟩ := List.mem_map.mp hold
      exact reactivatedRow_deactivatedAt _ _ _ (ok.active old ho) active
    · exact (fresh d hnew).2

/-- A name that was submitted has a row afterwards. -/
theorem DomainsWritten.exists_row (h : DomainsWritten values names now db after) {name : String}
    (hn : name ∈ names) : ∃ d ∈ after.domains.rows, d.normalizedDomain = name := by
  obtain ⟨created, hrows, _, _, hnames⟩ := h.rows
  rw [hrows]
  by_cases known : name ∈ db.domains.rows.map Domain.normalizedDomain
  · obtain ⟨d, hd, rfl⟩ := List.mem_map.mp known
    exact ⟨_, List.mem_append_left _ (List.mem_map_of_mem hd), reactivatedRow_name _ _ _⟩
  · obtain ⟨d, hd, he⟩ := List.mem_map.mp ((hnames name).mpr ⟨hn, known⟩)
    exact ⟨d, List.mem_append_right _ hd, he⟩

theorem DomainsWritten.active (h : DomainsWritten values names now db after) {d : Domain}
    (hd : d ∈ after.domains.rows) (hv : d.normalizedDomain ∈ values) : d.isActive = true := by
  obtain ⟨created, hrows, fresh, _, _⟩ := h.rows
  rw [hrows] at hd
  rcases List.mem_append.mp hd with hold | hnew
  · obtain ⟨old, _, rfl⟩ := List.mem_map.mp hold
    exact reactivatedRow_active _ _ _ (by simpa using hv)
  · exact (fresh d hnew).1

end Written

/-- The row an id points to is the one row with the name. -/
def PointsTo (db : Db) (id : DomainId) (name : String) : Prop :=
  ∃ d ∈ db.domains.rows, d.normalizedDomain = name ∧ d.id = id ∧
    ∀ e ∈ db.domains.rows, e.normalizedDomain = name → e = d

structure PendingFor (db : Db) (jobId : JobId) (value : String) (t : Task) : Prop where
  job : t.jobId = some jobId
  type : t.type = .userRequest
  status : t.status = .pending
  attempts : t.attempts = 0
  domain : PointsTo db t.domainId value

structure FailedFor (db : Db) (jobId : JobId) (d : NormalizedDomain) (t : Task) : Prop where
  job : t.jobId = some jobId
  type : t.type = .userRequest
  status : t.status = .failed
  error : t.errorPayload = some ⟨"VALIDATION_ERROR", Submission.validationMessage d, false⟩
  domain : PointsTo db t.domainId (Submission.invalidName d)

theorem pointsTo_of_find {db : Db} {name : String} {d : Domain}
    (names : (db.domains.rows.map Domain.normalizedDomain).Nodup)
    (h : findDomain db.domains.rows name = some d) : PointsTo db d.id name := by
  obtain ⟨hd, hname⟩ := (findDomain_eq_some_iff names).mp h
  refine ⟨d, hd, hname, rfl, ?_⟩
  intro e he hn
  exact List.inj_on_of_nodup_map names he hd (hn.trans hname.symm)

theorem forall₂_of_zipIdx_mapM {β γ : Type*} {f : β × Nat → Option γ} {R : β → γ → Prop}
    {xs : List β} {ys : List γ} {n : Nat} (each : ∀ x i y, f (x, i) = some y → R x y)
    (h : (xs.zipIdx n).mapM f = some ys) : List.Forall₂ R xs ys := by
  rw [← List.zipIdx_map_fst n xs, List.forall₂_map_left_iff]
  refine (forall₂_of_mapM h).imp ?_
  rintro ⟨x, i⟩ y made
  exact each x i y made

theorem persistTasks_tasks {sub : Submission} {db after : Db}
    (names : (after.domains.rows.map Domain.normalizedDomain).Nodup)
    (h : persistTasks sub db = some after) :
    ∃ pending failed, after.tasks.rows = db.tasks.rows ++ (pending ++ failed) ∧
      List.Forall₂ (PendingFor after sub.jobUuid)
        (sub.finalValidDomains.map NormalizedDomain.value) pending ∧
      List.Forall₂ (FailedFor after sub.jobUuid) sub.invalidDomains failed := by
  obtain ⟨_, valid, invalid, _, _, hv, hi, ht, rfl⟩ := persistTasks_cases h
  refine ⟨valid, invalid, Table.insert_rows ht, ?_, ?_⟩
  · rw [List.forall₂_map_left_iff]
    refine forall₂_of_zipIdx_mapM ?_ hv
    intro d i t he
    obtain ⟨row, hrow, rfl⟩ := Option.map_eq_some_iff.mp he
    exact ⟨rfl, rfl, rfl, rfl, pointsTo_of_find names hrow⟩
  · refine forall₂_of_zipIdx_mapM ?_ hi
    intro d i t he
    obtain ⟨row, hrow, rfl⟩ := Option.map_eq_some_iff.mp he
    exact ⟨rfl, rfl, rfl, rfl, pointsTo_of_find names hrow⟩

/-- Without a key only the job row precedes the domains. -/
theorem openJob_plain {sub : Submission} {db opened : Db} (plain : sub.scope = none)
    (h : openJob sub db = some opened) :
    ∃ jobs, db.jobs.insert [sub.jobRow] = some jobs ∧ opened = { db with jobs := jobs } := by
  obtain ⟨jobs, records, hj, rfl, ⟨_, same⟩ | ⟨scope, keyed, _⟩⟩ := openJob_cases h
  · exact ⟨jobs, hj, by rw [same]⟩
  · rw [plain] at keyed
    cases keyed

/-- The values of the valid results of a payload. -/
def validValues (results : List NormalizedDomain) : List String :=
  (validResults results).map NormalizedDomain.value

/-- Every name that a payload gives a domain row. -/
def submittedNames (results : List NormalizedDomain) : List String :=
  validValues results ++ (invalidResults results).map Submission.invalidName

/-- What an accepted request leaves behind, from the results of normalising its payload. -/
structure Accounted (results : List NormalizedDomain) (now : Instant) (jobId : JobId)
    (db after : Db) : Prop where
  job : after.jobs.rows = db.jobs.rows ++ [⟨jobId, .pending, now, now⟩]
  tasks : ∃ values pending failed,
    values.Nodup ∧ (∀ v, v ∈ values ↔ v ∈ validValues results) ∧
    after.tasks.rows = db.tasks.rows ++ (pending ++ failed) ∧
    List.Forall₂ (PendingFor after jobId) values pending ∧
    List.Forall₂ (FailedFor after jobId) (invalidResults results) failed
  domains : ∃ created,
    after.domains.rows = db.domains.rows.map (reactivatedRow (validValues results) now) ++ created ∧
    (∀ d ∈ created, d.isActive = true ∧ d.deactivatedAt = none) ∧
    ∀ name, name ∈ created.map Domain.normalizedDomain ↔
      name ∈ submittedNames results ∧ name ∉ db.domains.rows.map Domain.normalizedDomain
  names : (after.domains.rows.map Domain.normalizedDomain).Nodup
  active : ∀ v ∈ validValues results,
    ∃ d ∈ after.domains.rows, d.normalizedDomain = v ∧ d.isActive = true ∧ d.deactivatedAt = none
  details : ∀ detail, detail ∈ after.details.rows ↔ detail ∈ db.details.rows ∧
    ¬∃ d ∈ db.domains.rows, d.id = detail.domainId ∧ d.isActive = false ∧
      d.normalizedDomain ∈ validValues results
  records : after.idempotencyRecords = db.idempotencyRecords

theorem DomainsWritten.congr {values values' names names' : List String} {now : Instant}
    {db after : Db} (h : DomainsWritten values names now db after)
    (sameValues : ∀ v, v ∈ values ↔ v ∈ values') (sameNames : ∀ name, name ∈ names ↔ name ∈ names') :
    DomainsWritten values' names' now db after := by
  have sameRow : reactivatedRow values now = reactivatedRow values' now := by
    funext d
    exact if_congr (and_congr_right fun _ => sameValues _) rfl rfl
  obtain ⟨⟨created, hrows, fresh, nodup, hnames⟩, details⟩ := h
  constructor
  · rw [sameRow] at hrows
    exact ⟨created, hrows, fresh, nodup, fun name => (hnames name).trans
      (and_congr_left fun _ => sameNames name)⟩
  · simpa only [sameValues] using details

section Request

variable {text : PythonText} {sha256 : String → String} {request : CreateJobRequest}
  {draws : RequestDraws}

theorem mem_finalValues {v : String} :
    v ∈ (request.submission text sha256 draws).finalValidDomains.map NormalizedDomain.value ↔
      v ∈ validValues (request.domains.map (normalizeDomain text)) := mem_deduplicatedResults normalResults_map

theorem finalValues_nodup :
    ((request.submission text sha256 draws).finalValidDomains.map NormalizedDomain.value).Nodup := by
  have values := deduplicatedResults_values (@normalResults_map text request.domains)
  unfold CreateJobRequest.submission
  dsimp only
  rw [values]
  exact deduplicateFrom_nodup fun _ => value_fixed normalResults_map

theorem mem_submittedNames {name : String} :
    name ∈ (request.submission text sha256 draws).allDomainStrs ↔
      name ∈ submittedNames (request.domains.map (normalizeDomain text)) := by
  unfold Submission.allDomainStrs submittedNames
  rw [List.mem_dedup, List.mem_append, List.mem_append]
  exact or_congr mem_finalValues Iff.rfl

end Request

/-- An accepted request without a key accounts for every entry of its payload. -/
theorem ingestion_accounts {settings : AppSettings} {text : PythonText} {sha256 : String → String}
    {isShuttingDown : Bool} {request : CreateJobRequest} {draws : RequestDraws} {db after : Db}
    {jobId : JobId} (ok : DomainsOk db.domains.rows) (keyless : request.idempotencyKey = none)
    (accepted : postJobs settings text sha256 isShuttingDown request draws db =
      (after, .ok (.accepted jobId))) :
    Accounted (request.domains.map (normalizeDomain text)) draws.now jobId db after := by
  obtain ⟨rfl, opened, ho, hp⟩ := createJob_accepted (postJobs_ok accepted)
  have plain : (request.submission text sha256 draws).scope = none := by
    simp only [Submission.scope, CreateJobRequest.submission, keyless]
  obtain ⟨jobs, hj, rfl⟩ := openJob_plain plain ho
  have okOpened : DomainsOk ({ db with jobs := jobs } : Db).domains.rows := ok
  have written := (persistTasks_domains okOpened.names hp).congr (fun _ => mem_finalValues)
    (fun _ => mem_submittedNames)
  have okAfter := written.domainsOk okOpened
  obtain ⟨pending, failed, htasks, hpending, hfailed⟩ := persistTasks_tasks okAfter.names hp
  obtain ⟨sameJobs, sameRecords, _⟩ := persistTasks_spec hp
  obtain ⟨rows, hrows, fresh, _, hnames⟩ := written.rows
  exact {
    job := by
      rw [sameJobs]
      exact Table.insert_rows hj
    tasks := ⟨_, pending, failed, finalValues_nodup, fun _ => mem_finalValues, htasks, hpending,
      hfailed⟩
    domains := ⟨rows, hrows, fresh, hnames⟩
    names := okAfter.names
    active := by
      intro v hv
      obtain ⟨d, hd, rfl⟩ := written.exists_row (List.mem_append_left _ hv)
      have active := written.active hd hv
      exact ⟨d, hd, rfl, active, okAfter.active d hd active⟩
    details := written.details
    records := sameRecords }

/-- A payload with a respelling of a known, inactive domain, an unknown one and
two invalid entries. -/
def mixedRequest : CreateJobRequest :=
  { domains := ["Http://B.a/x", "b.a.", "c.d", "", "-"], idempotencyKey := none, clientId := none,
    requestId := "r" }

def mixedDraws : RequestDraws := ⟨7, 1, 1, String.length, fun n => n⟩

def mixedDb : Db :=
  { Db.empty with
    domains := ⟨[⟨10, "b.a", false, some 3, 0, 3⟩], by decide⟩
    details := ⟨[⟨10, [], [], 200, none, 5, [], 1, 2, 1⟩], by decide⟩ }

theorem ingestion_accounts_mixed :
    Accounted (mixedRequest.domains.map (normalizeDomain asciiText)) 7 1 mixedDb
      (postJobs .defaults asciiText id false mixedRequest mixedDraws mixedDb).1 := by
  have ok : DomainsOk mixedDb.domains.rows := ⟨by decide, by decide⟩
  have answer : (postJobs .defaults asciiText id false mixedRequest mixedDraws mixedDb).2 =
      .ok (.accepted 1) := by
    decide +kernel
  exact ingestion_accounts ok rfl (Prod.ext rfl answer)

theorem DomainsOk.map {domains : List Domain} {f : Domain → Domain} (ok : DomainsOk domains)
    (keep : ∀ d, (f d).normalizedDomain = d.normalizedDomain)
    (active : ∀ d, (d.isActive = true → d.deactivatedAt = none) → (f d).isActive = true →
      (f d).deactivatedAt = none) : DomainsOk (domains.map f) := by
  constructor
  · rw [List.map_map]
    exact (List.map_congr_left fun d _ => keep d).symm ▸ ok.names
  · intro d hd
    obtain ⟨old, ho, rfl⟩ := List.mem_map.mp hd
    exact active old (ok.active old ho)

theorem DomainsOk.deactivate {db : Db} (ok : DomainsOk db.domains.rows) (domainId : DomainId)
    (now : Instant) : DomainsOk (deactivateDomain db domainId now).domains.rows := by
  refine ok.map ?_ ?_
  · intro d
    dsimp only
    split
    · split <;> rfl
    · rfl
  · intro d hd
    dsimp only
    split
    · split
      next => intro active; cases active
      next => exact hd
    · exact hd

theorem DomainsOk.createJob {db : Db} (ok : DomainsOk db.domains.rows) (sub : Submission) :
    DomainsOk (createJob sub db).1.domains.rows := by
  rcases createJob_committed sub db with ⟨same, _⟩ | ⟨opened, ho, hp, _⟩
  · rw [same]
    exact ok
  · rw [← openJob_domains ho] at ok
    exact (persistTasks_domains ok.names hp).domainsOk ok

theorem DomainsOk.serviceNext {maxAttempts : Nat} {s t : ServiceState} {op : ServiceOp}
    (ok : DomainsOk s.db.domains.rows) (h : serviceNext maxAttempts s op = some t) :
    DomainsOk t.db.domains.rows := by
  cases op with
  | createJob sub =>
    cases Option.some.inj h
    exact ok.createJob sub
  | createRefreshTasks | claimTasks | recoveryCycle =>
    cases Option.some.inj h
    exact ok
  | writeCompleteTask taskId now =>
    obtain ⟨_, h⟩ := Option.ite_none_right_eq_some.mp h
    cases Option.some.inj h
    simpa [writeCompleteTask] using ok
  | writeFailTask taskId error now =>
    obtain ⟨_, h⟩ := Option.ite_none_right_eq_some.mp h
    cases Option.some.inj h
    simpa [writeFailTask] using ok
  | writeFailTaskWithDeactivation taskId domainId error failure now =>
    obtain ⟨_, h⟩ := Option.ite_none_right_eq_some.mp h
    cases Option.some.inj h
    unfold writeFailTaskWithDeactivation
    split
    · apply DomainsOk.deactivate
      simpa using ok
    · simpa using ok
  | writeRescheduleTask taskId error now draw =>
    obtain ⟨_, h⟩ := Option.ite_none_right_eq_some.mp h
    cases Option.some.inj h
    unfold writeRescheduleTask
    split
    · exact ok
    · dsimp only
      split
      · split
        · apply DomainsOk.deactivate
          simpa using ok
        · simpa using ok
      · exact ok

/-- The domain rows are so in every state that a service reaches. -/
theorem domainsOk_of_run {maxAttempts : Nat} {trace : List (ServiceState × ServiceOp)}
    {s : ServiceState} (run : ServiceRun maxAttempts .init trace s) : DomainsOk s.db.domains.rows :=
  Run.invariant (P := fun s : ServiceState => DomainsOk s.db.domains.rows) run
    ⟨List.nodup_nil, by simp [ServiceState.init, Db.empty, Table.empty]⟩ fun ok h => ok.serviceNext h

end DomainProcessing
