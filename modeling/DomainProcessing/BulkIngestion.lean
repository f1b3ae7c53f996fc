import DomainProcessing.ClientScopes
import DomainProcessing.DetailHistory

namespace DomainProcessing

open Tables

/-- The row that a method of the repository creates, with its own clock reading. -/
def Submission.createdRow (sub : Submission) (now : Instant) (name : String) : Domain :=
  { sub.domainRow name with createdAt := now, updatedAt := now }

theorem Submission.createdRow_now (sub : Submission) (name : String) :
    sub.createdRow sub.now name = sub.domainRow name := rfl

/-- `get_or_create` -/
def getOrCreate (sub : Submission) (now : Instant) (domains : Table Domain.id) (name : String) :
    Option (Table Domain.id × Domain) :=
  match findDomain domains.rows name with
  | some row => some (domains, row)
  | none => (domains.insert [sub.createdRow now name]).map fun created => (created, sub.createdRow now name)

def Domain.reactivated (now : Instant) (d : Domain) : Domain :=
  { d with isActive := true, deactivatedAt := none, updatedAt := now }

theorem Domain.reactivated_id (now : Instant) (d : Domain) : (d.reactivated now).id = d.id := rfl

/-- `get_or_create_with_reactivation` -/
def getOrCreateWithReactivation (sub : Submission) (now : Instant) (domains : Table Domain.id) (name : String) :
    Option (Table Domain.id × Domain × Bool) :=
  match findDomain domains.rows name with
  | some row =>
    if row.isActive then some (domains, row, false)
    else some (domains.set row.id (Domain.reactivated now) (Domain.reactivated_id now), row.reactivated now, true)
  | none =>
    (domains.insert [sub.createdRow now name]).map fun created => (created, sub.createdRow now name, false)

def prepareValid (sub : Submission) (now : Instant) (db : Db) (name : String) : Option Db :=
  (getOrCreateWithReactivation sub now db.domains name).map fun (domains, row, wasReactivated) =>
    { db with
      domains := domains
      details := if wasReactivated then clearDomainDetail row.id db.details else db.details }

def prepareInvalid (sub : Submission) (now : Instant) (db : Db) (name : String) : Option Db :=
  (getOrCreate sub now db.domains name).map fun (domains, _) => { db with domains := domains }

/-- The statements after the savepoint with one lookup, insert, update and delete
for each name in place of those for all of them. Every call reads the clock. -/
def persistSingly (sub : Submission) (readings : Nat → Instant) (db : Db) : Option Db := do
  let values := sub.finalValidDomains.map NormalizedDomain.value
  let others := sub.invalidDomains.map Submission.invalidName
  let db ← values.zipIdx.foldlM (fun db call => prepareValid sub (readings call.2) db call.1) db
  let db ← (others.zipIdx values.length).foldlM (fun db call => prepareInvalid sub (readings call.2) db call.1) db
  let valid ← validTasks sub db.domains.rows
  let invalid ← invalidTasks sub db.domains.rows
  let tasks ← db.tasks.insert (valid ++ invalid)
  pure { db with tasks := tasks }

/-- A domain without its clock readings. -/
def Domain.unstamped (d : Domain) : Domain := { d with createdAt := 0, updatedAt := 0 }

theorem Domain.unstamped_id (d : Domain) : d.unstamped.id = d.id := rfl

def Db.unstamped (db : Db) : Db :=
  { db with domains := db.domains.update Domain.unstamped Domain.unstamped_id }

/-- An inactive domain of this id is reactivated under one of the names. -/
def reactivates (values : List String) (db : Db) (domainId : DomainId) : Bool :=
  db.domains.rows.any fun d =>
    decide (d.id = domainId ∧ d.isActive = false ∧ d.normalizedDomain ∈ values)

/-- The database once some names have been looked up, and some of them reactivated. -/
structure Prepared (sub : Submission) (values names : List String) (db after : Db) : Prop where
  domains : ∃ missing : List String,
    after.domains.rows = db.domains.rows.map (reactivatedRow values sub.now) ++
      missing.map sub.domainRow ∧ missing.Nodup ∧
    ∀ name, name ∈ missing ↔ name ∈ names ∧ name ∉ db.domains.rows.map Domain.normalizedDomain
  details : after.details.rows =
    db.details.rows.filter fun detail => !reactivates values db detail.domainId
  jobs : after.jobs = db.jobs
  tasks : after.tasks = db.tasks
  records : after.idempotencyRecords = db.idempotencyRecords

section Preparing

variable {sub : Submission} {values names : List String} {db mid after : Db} {name : String}

theorem reactivatedRow_other {d : Domain} (other : d.normalizedDomain ≠ name) :
    reactivatedRow (values ++ [name]) sub.now d = reactivatedRow values sub.now d := by
  unfold reactivatedRow
  refine if_congr (and_congr_right fun _ => ?_) rfl rfl
  rw [List.mem_append, List.mem_singleton, or_iff_left other]

/-- A name whose domain is active by now changes nothing. -/
theorem reactivatedRow_again {d : Domain}
    (active : d.normalizedDomain = name → (reactivatedRow values sub.now d).isActive = true) :
    reactivatedRow (values ++ [name]) sub.now d = reactivatedRow values sub.now d := by
  by_cases own : d.normalizedDomain = name
  · have done := active own
    unfold reactivatedRow at done ⊢
    by_cases inactive : d.isActive = false
    · by_cases listed : d.normalizedDomain ∈ values
      · rw [if_pos ⟨inactive, List.mem_append_left _ listed⟩, if_pos ⟨inactive, listed⟩]
      · rw [if_neg fun both => listed both.2, inactive] at done
        cases done
    · rw [if_neg fun both => inactive both.1, if_neg fun both => inactive both.1]
  · exact reactivatedRow_other own

theorem Prepared.start (sub : Submission) (db : Db) : Prepared sub [] [] db db := by
  have untouched : reactivatedRow [] sub.now = id := by
    funext d
    exact if_neg fun both => List.not_mem_nil both.2
  have kept : ∀ domainId, reactivates [] db domainId = false := by
    intro domainId
    simp [reactivates]
  refine ⟨⟨[], ?_, List.nodup_nil, ?_⟩, ?_, rfl, rfl, rfl⟩
  · rw [untouched, List.map_id, List.map_nil, List.append_nil]
  · intro name
    simp
  · simp [kept]

theorem Prepared.names_nodup (prepared : Prepared sub values names db mid)
    (distinct : (db.domains.rows.map Domain.normalizedDomain).Nodup) :
    (mid.domains.rows.map Domain.normalizedDomain).Nodup := by
  obtain ⟨missing, rows, nodup, new⟩ := prepared.domains
  have same : (db.domains.rows.map (reactivatedRow values sub.now)).map Domain.normalizedDomain =
      db.domains.rows.map Domain.normalizedDomain := by
    rw [List.map_map]
    exact List.map_congr_left fun d _ => reactivatedRow_name values sub.now d
  rw [rows]
  refine names_nodup_append (same.symm ▸ distinct) nodup fun name mem => ?_
  rw [same]
  exact ((new name).mp mem).2

theorem Prepared.row (prepared : Prepared sub values names db mid) {d : Domain} (held : d ∈ db.domains.rows) :
    reactivatedRow values sub.now d ∈ mid.domains.rows := by
  obtain ⟨missing, rows, -⟩ := prepared.domains
  rw [rows]
  exact List.mem_append_left _ (List.mem_map_of_mem held)

/-- The details that stay, when one more domain is reactivated. -/
theorem reactivates_concat {d : Domain} (distinct : (db.domains.rows.map Domain.normalizedDomain).Nodup)
    (stored : d ∈ db.domains.rows) (named : d.normalizedDomain = name) (inactive : d.isActive = false)
    (domainId : DomainId) : reactivates (values ++ [name]) db domainId =
      (reactivates values db domainId || decide (domainId = d.id)) := by
  rw [Bool.eq_iff_iff]
  simp only [reactivates, List.any_eq_true, decide_eq_true_eq, Bool.or_eq_true, List.mem_append,
    List.mem_singleton]
  constructor
  · rintro ⟨e, held, id, asleep, listed | own⟩
    · exact Or.inl ⟨e, held, id, asleep, listed⟩
    · have same : e = d := List.inj_on_of_nodup_map distinct held stored (own.trans named.symm)
      exact Or.inr (same ▸ id.symm)
  · rintro (⟨e, held, id, asleep, listed⟩ | rfl)
    · exact ⟨e, held, id, asleep, Or.inl listed⟩
    · exact ⟨d, stored, rfl, inactive, Or.inr named⟩

/-- A name that has an active row by now, or needs no active one. -/
theorem Prepared.again (prepared : Prepared sub values names db mid)
    (known : name ∈ mid.domains.rows.map Domain.normalizedDomain) :
    Prepared sub values (names ++ [name]) db mid := by
  obtain ⟨⟨missing, rows, nodup, new⟩, details, jobs, tasks, records⟩ := prepared
  refine ⟨⟨missing, rows, nodup, fun other => ?_⟩, details, jobs, tasks, records⟩
  rw [new other, List.mem_append, List.mem_singleton]
  refine ⟨fun ⟨listed, absent⟩ => ⟨Or.inl listed, absent⟩, ?_⟩
  rintro ⟨listed | rfl, absent⟩
  · exact ⟨listed, absent⟩
  · rw [rows, List.map_append, map_domainRow, List.mem_append] at known
    rcases known with old | created
    · rw [List.map_map] at old
      obtain ⟨d, held, named⟩ := List.mem_map.mp old
      rw [Function.comp_apply, reactivatedRow_name] at named
      exact absurd (List.mem_map.mpr ⟨d, held, named⟩) absent
    · exact (new other).mp created

/-- Another value whose domain, if there is one, is active by now. -/
theorem Prepared.value (prepared : Prepared sub values names db mid)
    (active : ∀ d ∈ db.domains.rows, d.normalizedDomain = name →
      (reactivatedRow values sub.now d).isActive = true) :
    Prepared sub (values ++ [name]) names db mid := by
  obtain ⟨⟨missing, rows, nodup, new⟩, details, jobs, tasks, records⟩ := prepared
  have same : ∀ domainId, reactivates (values ++ [name]) db domainId = reactivates values db domainId := by
    intro domainId
    rw [Bool.eq_iff_iff]
    simp only [reactivates, List.any_eq_true, decide_eq_true_eq, List.mem_append, List.mem_singleton]
    refine exists_congr fun d => and_congr_right fun held => and_congr_right fun _ =>
      and_congr_right fun asleep => ?_
    refine ⟨fun either => ?_, Or.inl⟩
    rcases either with listed | own
    · exact listed
    · have done := active d held own
      unfold reactivatedRow at done
      split at done
      next both => exact both.2
      next =>
        rw [asleep] at done
        cases done
  refine ⟨⟨missing, ?_, nodup, new⟩, ?_, jobs, tasks, records⟩
  · rw [rows]
    refine congrArg (· ++ _) (List.map_congr_left fun d held => ?_)
    exact (reactivatedRow_again (active d held)).symm
  · rw [details]
    simp only [same]

/-- A name without a row gets one. -/
theorem Prepared.create (prepared : Prepared sub values names db mid) (fresh : FreshDraws sub db)
    (submitted : ∀ n ∈ names ++ [name], n ∈ sub.allDomainStrs)
    (absent : name ∉ mid.domains.rows.map Domain.normalizedDomain) :
    ∃ created, mid.domains.insert [sub.domainRow name] = some created ∧
      Prepared sub values (names ++ [name]) db { mid with domains := created } := by
  obtain ⟨⟨missing, rows, nodup, new⟩, details, jobs, tasks, records⟩ := prepared
  have wanted : name ∈ sub.allDomainStrs := submitted name (by simp)
  have unseen : name ∉ db.domains.rows.map Domain.normalizedDomain ∧ name ∉ missing := by
    rw [rows, List.map_append, map_domainRow, List.mem_append, not_or, List.map_map] at absent
    refine ⟨fun old => absent.1 ?_, absent.2⟩
    obtain ⟨d, held, named⟩ := List.mem_map.mp old
    exact List.mem_map.mpr ⟨d, held, by rw [Function.comp_apply, reactivatedRow_name, named]⟩
  have unused : mid.domains.get (sub.domainUuid name) = none := by
    rw [Table.get_eq_none_iff, rows, List.map_append, List.mem_append, not_or]
    constructor
    · intro used
      obtain ⟨row, held, same⟩ := List.mem_map.mp used
      obtain ⟨d, stored, rfl⟩ := List.mem_map.mp held
      rw [reactivatedRow_id] at same
      exact fresh.domains d stored name wanted same
    · intro used
      obtain ⟨row, held, same⟩ := List.mem_map.mp used
      obtain ⟨other, listed, rfl⟩ := List.mem_map.mp held
      have other_wanted := submitted other (List.mem_append_left _ ((new other).mp listed).1)
      have own := fresh.domainsInjective other other_wanted name wanted same
      exact unseen.2 (own ▸ listed)
  obtain ⟨created, inserted⟩ := @Table.exists_insert _ _ Domain.id _ mid.domains [sub.domainRow name]
    (List.nodup_singleton _) fun row mem => by
      rw [List.mem_singleton.mp mem]
      exact unused
  refine ⟨created, inserted, ⟨missing ++ [name], ?_, ?_, fun other => ?_⟩, details, jobs, tasks, records⟩
  · rw [Table.insert_rows inserted, rows, List.map_append, List.append_assoc]
    rfl
  · exact nodup.append (List.nodup_singleton _) fun other listed single =>
      unseen.2 (List.mem_singleton.mp single ▸ listed)
  · rw [List.mem_append, List.mem_append, List.mem_singleton, new other]
    refine ⟨?_, ?_⟩
    · rintro (⟨listed, old⟩ | rfl)
      · exact ⟨Or.inl listed, old⟩
      · exact ⟨Or.inr rfl, unseen.1⟩
    · rintro ⟨listed | rfl, old⟩
      · exact Or.inl ⟨listed, old⟩
      · exact Or.inr rfl

/-- A name whose domain is inactive. -/
theorem Prepared.reactivate (prepared : Prepared sub values names db mid)
    (distinct : (db.domains.rows.map Domain.normalizedDomain).Nodup) {row : Domain}
    (held : row ∈ mid.domains.rows) (named : row.normalizedDomain = name) (asleep : row.isActive = false) :
    Prepared sub (values ++ [name]) names db { mid with
      domains := mid.domains.set row.id (Domain.reactivated sub.now) (Domain.reactivated_id sub.now)
      details := clearDomainDetail row.id mid.details } := by
  obtain ⟨⟨missing, rows, nodup, new⟩, details, jobs, tasks, records⟩ := prepared
  obtain ⟨stored, unlisted⟩ : row ∈ db.domains.rows ∧ row.normalizedDomain ∉ values := by
    rw [rows] at held
    rcases List.mem_append.mp held with old | created
    · obtain ⟨d, stored, same⟩ := List.mem_map.mp old
      unfold reactivatedRow at same
      split at same
      next =>
        rw [← same] at asleep
        cases asleep
      next neither =>
        subst same
        exact ⟨stored, fun listed => neither ⟨asleep, listed⟩⟩
    · obtain ⟨other, _, rfl⟩ := List.mem_map.mp created
      cases asleep
  have old_rows : ∀ d ∈ db.domains.rows,
      (if (reactivatedRow values sub.now d).id = row.id then
          (reactivatedRow values sub.now d).reactivated sub.now
        else reactivatedRow values sub.now d) = reactivatedRow (values ++ [name]) sub.now d := by
    intro d old
    rw [reactivatedRow_id]
    by_cases same : d.id = row.id
    · cases Table.eq_of_key old stored same
      have untouched : reactivatedRow values sub.now row = row := if_neg fun both => unlisted both.2
      rw [if_pos rfl, untouched]
      exact (if_pos ⟨asleep, List.mem_append_right _ (List.mem_singleton.mpr named)⟩).symm
    · rw [if_neg same]
      refine (reactivatedRow_other fun own => same ?_).symm
      rw [List.inj_on_of_nodup_map distinct old stored (own.trans named.symm)]
  have new_rows : ∀ r ∈ missing.map sub.domainRow,
      (if r.id = row.id then r.reactivated sub.now else r) = r := by
    intro r created
    refine if_neg fun same => ?_
    have in_table : r ∈ mid.domains.rows := by
      rw [rows]
      exact List.mem_append_right _ created
    cases Table.eq_of_key in_table held same
    obtain ⟨other, _, rfl⟩ := List.mem_map.mp created
    cases asleep
  refine ⟨⟨missing, ?_, nodup, new⟩, ?_, jobs, tasks, records⟩
  · change mid.domains.rows.map
      (fun r => if r.id = row.id then r.reactivated sub.now else r) = _
    rw [rows, List.map_append, List.map_map]
    exact congrArg₂ (· ++ ·) (List.map_congr_left old_rows)
      ((List.map_congr_left new_rows).trans (List.map_id _))
  · change mid.details.rows.filter _ = _
    rw [details, List.filter_filter]
    refine List.filter_congr fun detail _ => ?_
    rw [reactivates_concat distinct stored named asleep]
    simp [Bool.and_comm]

/-- One step for a valid name. -/
theorem prepareValid_step (prepared : Prepared sub values names db mid) (fresh : FreshDraws sub db)
    (distinct : (db.domains.rows.map Domain.normalizedDomain).Nodup)
    (submitted : ∀ n ∈ names ++ [name], n ∈ sub.allDomainStrs) :
    ∃ after, prepareValid sub sub.now mid name = some after ∧
      Prepared sub (values ++ [name]) (names ++ [name]) db after := by
  have unique := prepared.names_nodup distinct
  unfold prepareValid getOrCreateWithReactivation
  cases found : findDomain mid.domains.rows name with
  | none =>
    have absent := findDomain_isNone_iff.mp (by rw [found]; rfl)
    obtain ⟨created, inserted, next⟩ := prepared.create fresh submitted absent
    refine ⟨{ mid with domains := created }, ?_, next.value fun d held named => ?_⟩
    · simp only [Submission.createdRow_now, inserted]
      rfl
    · refine absurd (List.mem_map.mpr ⟨_, prepared.row held, ?_⟩) absent
      rw [reactivatedRow_name, named]
  | some row =>
    obtain ⟨held, named⟩ := (findDomain_eq_some_iff unique).mp found
    have known : name ∈ mid.domains.rows.map Domain.normalizedDomain := List.mem_map.mpr ⟨row, held, named⟩
    cases awake : row.isActive with
    | true =>
      refine ⟨mid, ?_, (prepared.again known).value fun d stored own => ?_⟩
      · simp only [awake]
        rfl
      · have same_name : (reactivatedRow values sub.now d).normalizedDomain = row.normalizedDomain := by
          rw [reactivatedRow_name, own, named]
        rw [List.inj_on_of_nodup_map unique (prepared.row stored) held same_name]
        exact awake
    | false =>
      refine ⟨_, ?_, (prepared.again known).reactivate distinct held named awake⟩
      simp only [awake]
      rfl

/-- One step for an invalid name. -/
theorem prepareInvalid_step (prepared : Prepared sub values names db mid) (fresh : FreshDraws sub db)
    (submitted : ∀ n ∈ names ++ [name], n ∈ sub.allDomainStrs) :
    ∃ after, prepareInvalid sub sub.now mid name = some after ∧
      Prepared sub values (names ++ [name]) db after := by
  unfold prepareInvalid getOrCreate
  cases found : findDomain mid.domains.rows name with
  | none =>
    have absent := findDomain_isNone_iff.mp (by rw [found]; rfl)
    obtain ⟨created, inserted, next⟩ := prepared.create fresh submitted absent
    refine ⟨_, ?_, next⟩
    simp only [Submission.createdRow_now, inserted]
    rfl
  | some row =>
    have held : row ∈ mid.domains.rows := List.mem_of_find?_eq_some found
    have named : row.normalizedDomain = name := by simpa using List.find?_some found
    exact ⟨mid, rfl, prepared.again (List.mem_map.mpr ⟨row, held, named⟩)⟩

theorem prepareValid_all (pending : List String) (fresh : FreshDraws sub db)
    (distinct : (db.domains.rows.map Domain.normalizedDomain).Nodup)
    (prepared : Prepared sub values names db mid)
    (submitted : ∀ n ∈ names ++ pending, n ∈ sub.allDomainStrs) :
    ∃ after, pending.foldlM (prepareValid sub sub.now) mid = some after ∧
      Prepared sub (values ++ pending) (names ++ pending) db after := by
  induction pending generalizing values names mid with
  | nil =>
    rw [List.append_nil, List.append_nil]
    exact ⟨mid, rfl, prepared⟩
  | cons name pending ih =>
    have moved : ∀ names : List String, names ++ name :: pending = (names ++ [name]) ++ pending :=
      fun names => List.append_cons names name pending
    rw [moved] at submitted
    obtain ⟨next, stepped, kept⟩ := prepareValid_step prepared fresh distinct
      fun n mem => submitted n (List.mem_append_left _ mem)
    obtain ⟨after, done, all⟩ := ih kept submitted
    rw [moved, moved]
    exact ⟨after, by rw [List.foldlM_cons, stepped]; exact done, all⟩

theorem prepareInvalid_all (pending : List String) (fresh : FreshDraws sub db)
    (prepared : Prepared sub values names db mid)
    (submitted : ∀ n ∈ names ++ pending, n ∈ sub.allDomainStrs) :
    ∃ after, pending.foldlM (prepareInvalid sub sub.now) mid = some after ∧
      Prepared sub values (names ++ pending) db after := by
  induction pending generalizing names mid with
  | nil =>
    rw [List.append_nil]
    exact ⟨mid, rfl, prepared⟩
  | cons name pending ih =>
    rw [List.append_cons] at submitted ⊢
    obtain ⟨next, stepped, kept⟩ := prepareInvalid_step prepared fresh
      fun n mem => submitted n (List.mem_append_left _ mem)
    obtain ⟨after, done, all⟩ := ih kept submitted
    exact ⟨after, by rw [List.foldlM_cons, stepped]; exact done, all⟩

/-- The statements for all names at once. -/
theorem prepared_bulk {domains : Table Domain.id}
    (distinct : (db.domains.rows.map Domain.normalizedDomain).Nodup)
    (created : createMissingDomains sub db.domains = some domains) :
    Prepared sub (sub.finalValidDomains.map NormalizedDomain.value) sub.allDomainStrs db
      (reactivate sub { db with domains := domains }) := by
  obtain ⟨missing, rows, nodup, new⟩ := createMissingDomains_rows created
  have unique : (domains.rows.map Domain.normalizedDomain).Nodup := by
    rw [rows]
    exact names_nodup_append distinct nodup fun name mem => ((new name).mp mem).2
  have chosen : ∀ domainId, domainId ∈ reactivatedIds sub domains.rows ↔
      reactivates (sub.finalValidDomains.map NormalizedDomain.value) db domainId = true := by
    intro domainId
    simp only [mem_reactivatedIds unique, reactivates, List.any_eq_true, decide_eq_true_eq]
    refine exists_congr fun d => ⟨fun ⟨held, id, asleep, listed⟩ => ⟨?_, id, asleep, listed⟩,
      fun ⟨held, rest⟩ => ⟨rows ▸ List.mem_append_left _ held, rest⟩⟩
    rw [rows] at held
    refine (List.mem_append.mp held).resolve_right fun fresh => ?_
    obtain ⟨name, _, rfl⟩ := List.mem_map.mp fresh
    cases asleep
  have row : ∀ d ∈ domains.rows, (if d.id ∈ reactivatedIds sub domains.rows then d.reactivated sub.now else d) =
      reactivatedRow (sub.finalValidDomains.map NormalizedDomain.value) sub.now d := by
    intro d held
    refine if_congr ?_ rfl rfl
    rw [mem_reactivatedIds unique]
    constructor
    · rintro ⟨e, mem, id, rest⟩
      cases Table.eq_of_key mem held id
      exact rest
    · exact fun rest => ⟨d, held, rfl, rest⟩
  have untouched : ∀ d ∈ missing.map sub.domainRow,
      reactivatedRow (sub.finalValidDomains.map NormalizedDomain.value) sub.now d = d := by
    intro d mem
    obtain ⟨name, _, rfl⟩ := List.mem_map.mp mem
    exact reactivatedRow_of_active _ _ _ rfl
  refine ⟨⟨missing, ?_, nodup, new⟩, ?_, rfl, rfl, rfl⟩
  · have rewritten : (reactivate sub { db with domains := domains }).domains.rows =
        domains.rows.map (reactivatedRow (sub.finalValidDomains.map NormalizedDomain.value) sub.now) :=
      List.map_congr_left row
    rw [rewritten, rows, List.map_append]
    exact congrArg _ ((List.map_congr_left untouched).trans (List.map_id _))
  · refine List.filter_congr fun detail _ => congrArg (!·) ?_
    rw [Bool.eq_iff_iff, decide_eq_true_eq]
    exact chosen detail.domainId

/-- Two ways to prepare the same names end in the same rows. -/
theorem Prepared.same {names' : List String} {other : Db} (one : Prepared sub values names db after)
    (two : Prepared sub values names' db other) (agree : ∀ n, n ∈ names ↔ n ∈ names') :
    after.domains.rows.Perm other.domains.rows ∧ after.details = other.details := by
  obtain ⟨⟨missing, rows, nodup, new⟩, details, -⟩ := one
  obtain ⟨⟨missing', rows', nodup', new'⟩, details', -⟩ := two
  constructor
  · rw [rows, rows']
    have perm : missing.Perm missing' := by
      refine (List.perm_ext_iff_of_nodup nodup nodup').mpr fun n => ?_
      rw [new, new', agree]
    exact (perm.map _).append_left _
  · exact Table.ext (details.trans details'.symm)

theorem find_unstamped (rows : List Domain) (name : String) :
    findDomain (rows.map Domain.unstamped) name = (findDomain rows name).map Domain.unstamped := by
  unfold findDomain
  rw [List.find?_map]
  rfl

/-- A call leaves the same but for the clock readings. -/
theorem prepareInvalid_unstamped (now : Instant) (db : Db) (name : String) :
    (prepareInvalid sub now db name).map Db.unstamped = prepareInvalid sub 0 db.unstamped name := by
  have inserted := Table.insert_update db.domains [sub.createdRow now name] Domain.unstamped Domain.unstamped_id
  have looked : findDomain db.unstamped.domains.rows name =
      (findDomain db.domains.rows name).map Domain.unstamped :=
    find_unstamped db.domains.rows name
  unfold prepareInvalid getOrCreate
  rw [looked]
  cases findDomain db.domains.rows name with
  | some row => rfl
  | none =>
    have row : [sub.createdRow now name].map Domain.unstamped = [sub.createdRow 0 name] := rfl
    rw [row] at inserted
    change _ = Option.map _ (Option.map _ ((db.domains.update Domain.unstamped Domain.unstamped_id).insert _))
    rw [inserted]
    cases db.domains.insert [sub.createdRow now name] <;> rfl

theorem prepareValid_unstamped (now : Instant) (db : Db) (name : String) :
    (prepareValid sub now db name).map Db.unstamped = prepareValid sub 0 db.unstamped name := by
  have inserted := Table.insert_update db.domains [sub.createdRow now name] Domain.unstamped Domain.unstamped_id
  have looked : findDomain db.unstamped.domains.rows name =
      (findDomain db.domains.rows name).map Domain.unstamped :=
    find_unstamped db.domains.rows name
  unfold prepareValid getOrCreateWithReactivation
  rw [looked]
  cases findDomain db.domains.rows name with
  | some row =>
    have active : row.unstamped.isActive = row.isActive := rfl
    simp only [Option.map_some, active]
    cases row.isActive with
    | true => rfl
    | false =>
      have rewritten := Table.set_update db.domains row.id Domain.unstamped_id (Domain.reactivated_id now)
        (Domain.reactivated_id 0) fun _ => rfl
      exact congrArg (fun domains => some { db with
        domains := domains, details := clearDomainDetail row.id db.details }) rewritten
  | none =>
    have row : [sub.createdRow now name].map Domain.unstamped = [sub.createdRow 0 name] := rfl
    rw [row] at inserted
    change _ = Option.map _ (Option.map _ ((db.domains.update Domain.unstamped Domain.unstamped_id).insert _))
    rw [inserted]
    cases db.domains.insert [sub.createdRow now name] <;> rfl

theorem foldlM_unstamped {step : Instant → Db → String → Option Db}
    (each : ∀ now db name, (step now db name).map Db.unstamped = step 0 db.unstamped name)
    (readings : Nat → Instant) (pending : List String) (n : Nat) (db : Db) :
    ((pending.zipIdx n).foldlM (fun db call => step (readings call.2) db call.1) db).map Db.unstamped =
      pending.foldlM (step 0) db.unstamped := by
  induction pending generalizing n db with
  | nil => rfl
  | cons name rest ih =>
    rw [List.zipIdx_cons, List.foldlM_cons, List.foldlM_cons, ← each (readings n)]
    dsimp only
    cases step (readings n) db name with
    | none => rfl
    | some next => exact ih (n + 1) next

theorem validTasks_unstamped : validTasks sub db.unstamped.domains.rows = validTasks sub db.domains.rows := by
  have looked : ∀ name, findDomain db.unstamped.domains.rows name =
      (findDomain db.domains.rows name).map Domain.unstamped := find_unstamped db.domains.rows
  unfold validTasks
  simp only [looked, Option.map_map]
  rfl

theorem invalidTasks_unstamped :
    invalidTasks sub db.unstamped.domains.rows = invalidTasks sub db.domains.rows := by
  have looked : ∀ name, findDomain db.unstamped.domains.rows name =
      (findDomain db.domains.rows name).map Domain.unstamped := find_unstamped db.domains.rows
  unfold invalidTasks
  simp only [looked, Option.map_map]
  rfl

theorem findDomain_perm {rows rows' : List Domain} (distinct : (rows.map Domain.normalizedDomain).Nodup)
    (perm : rows.Perm rows') : findDomain rows = findDomain rows' := by
  funext name
  have distinct' : (rows'.map Domain.normalizedDomain).Nodup := (perm.map _).nodup_iff.mp distinct
  cases found : findDomain rows' name with
  | none =>
    have absent := findDomain_isNone_iff.mp (by rw [found]; rfl)
    have absent' : name ∉ rows.map Domain.normalizedDomain := fun mem =>
      absent ((perm.map _).mem_iff.mp mem)
    exact Option.isNone_iff_eq_none.mp (findDomain_isNone_iff.mpr absent')
  | some row =>
    obtain ⟨held, named⟩ := (findDomain_eq_some_iff distinct').mp found
    exact (findDomain_eq_some_iff distinct).mpr ⟨perm.mem_iff.mpr held, named⟩

end Preparing

/-- Whatever the clock shows at each call, the calls leave what they leave when it
stands still, but for the clock readings. -/
theorem exists_calls {step : Instant → Db → String → Option Db}
    (each : ∀ now db name, (step now db name).map Db.unstamped = step 0 db.unstamped name) {now : Instant}
    (readings : Nat → Instant) {pending : List String} (n : Nat) {db other after : Db}
    (same : db.unstamped = other.unstamped) (h : pending.foldlM (step now) db = some after) :
    ∃ done, (pending.zipIdx n).foldlM (fun db call => step (readings call.2) db call.1) other = some done ∧
      after.unstamped = done.unstamped := by
  have still := foldlM_unstamped each (fun _ => now) pending 0 db
  have moving := foldlM_unstamped each readings pending n other
  have plain : (pending.zipIdx 0).foldlM (fun db call => step now db call.1) db = pending.foldlM (step now) db := by
    conv_rhs => rw [← List.zipIdx_map_fst 0 pending, List.foldlM_map]
  rw [plain, h, Option.map_some, same, ← moving] at still
  obtain ⟨done, run, eq⟩ := Option.map_eq_some_iff.mp still.symm
  exact ⟨done, run, eq.symm⟩

/-- An inactive domain with a detail. -/
def inactiveDb : Db :=
  { Db.empty with
    domains := ⟨[⟨11, "a.example", false, some 5, 0, 5⟩], by decide⟩
    details := ⟨[⟨11, [], [], 200, none, 5, [], 0, 0, 1⟩], by decide⟩ }

def returningSubmission : Submission :=
  plainSubmission 1 [⟨"a.example", true, none⟩, ⟨"b.example.org", true, none⟩] [⟨"", false, none⟩]

end DomainProcessing
