import DomainProcessing.IdempotentIngestion
import DomainProcessing.SerialIngestion

namespace DomainProcessing

open Tables RowLocks Runs

/-- The names that the bulk lookup has not found. -/
def missingNames (sub : Submission) (found : List Domain) : List String :=
  sub.allDomainStrs.filter fun name => (findDomain found name).isNone

/-- The names to create are not `committed`, and the domains to reactivate are
as they were found. -/
def IngestPhase.StillFound (sub : Submission) (committed : String → Option Domain) :
    IngestPhase → Prop
  | .domainsRead found => ∀ name ∈ missingNames sub found, committed name = none
  | .domainsCreated known =>
    ∀ name ∈ reactivatedNames sub known, committed name = findDomain known name
  | _ => True

instance (sub : Submission) (committed : String → Option Domain) (phase : IngestPhase) :
    Decidable (phase.StillFound sub committed) :=
  match phase with
  | .domainsRead found =>
    inferInstanceAs (Decidable (∀ name ∈ missingNames sub found, committed name = none))
  | .domainsCreated known =>
    inferInstanceAs (Decidable (∀ name ∈ reactivatedNames sub known,
      committed name = findDomain known name))
  | .ready | .jobInserted | .refused | .replaying _ | .opened | .domainsReactivated _
  | .tasksInserted | .finished _ _ => inferInstanceAs (Decidable True)

section Steps

variable {ι : Type*} [DecidableEq ι]

/-- The unique index on `normalized_domain` refuses the bulk insert. -/
def duplicateName (sub : ι → Submission) (s : IngestState ι) (r : ι) : Bool :=
  match s.phase r with
  | .domainsRead found =>
    (missingNames (sub r) found).any fun name => (s.domains.committed name).isSome
  | _ => false

/-- The statements of the requests, of which only a duplicate name raises. -/
def submitNext (sub : ι → Submission) (s : IngestState ι) (step : ι × IngestAction) :
    Option (IngestState ι) :=
  match step.2 with
  | .savepointError | .commit false => none
  | .fail => if duplicateName sub s step.1 then ingestNext sub s step else none
  | _ => ingestNext sub s step

abbrev SubmitRun (sub : ι → Submission) := Run (submitNext sub)

/-- What the bulk lookup read is still so when the request acts on it: no name
it has to create is committed, and no domain it reactivates has changed. -/
def LookupHolds (sub : ι → Submission) (s : IngestState ι) (step : ι × IngestAction) : Prop :=
  (s.phase step.1).StillFound (sub step.1) s.domains.committed

instance (sub : ι → Submission) (s : IngestState ι) (step : ι × IngestAction) :
    Decidable (LookupHolds sub s step) :=
  inferInstanceAs (Decidable ((s.phase step.1).StillFound (sub step.1) s.domains.committed))

/-- `is_active = True`, `deactivated_at = None`, `updated_at = now` -/
def reactivation (now : Instant) (d : Domain) : Domain :=
  { d with isActive := true, deactivatedAt := none, updatedAt := now }

/-- A request meets a committed record, a committed name that it is about to
create, or is in a phase that only follows from these. -/
inductive Derailed (sub : ι → Submission) (s : IngestState ι) (r : ι) : Prop
  | record {scope} : s.phase r = .jobInserted → (sub r).scope = some scope →
      s.records.view r scope ≠ none → Derailed sub s r
  | refused : s.phase r = .refused → Derailed sub s r
  | replaying {jobId} : s.phase r = .replaying jobId → Derailed sub s r
  | name {found name} : s.phase r = .domainsRead found → name ∈ missingNames (sub r) found →
      s.domains.committed name ≠ none → Derailed sub s r

/-- The steps that `submitNext` allows. -/
inductive SubmitStep (sub : ι → Submission) (s : IngestState ι) (r : ι) :
    IngestAction → IngestState ι → Prop
  | insertJob {jobs} : s.phase r = .ready →
      s.jobs.insert r (sub r).jobUuid (sub r).jobRow = some jobs →
      SubmitStep sub s r .insertJob ({ s with jobs := jobs }.move r
        (if (sub r).scope.isSome then .jobInserted else .opened))
  | insertRecord {scope records} : s.phase r = .jobInserted → (sub r).scope = some scope →
      s.records.insert r scope ((sub r).recordRow scope) = some records →
      SubmitStep sub s r .insertRecord ({ s with records := records }.move r .opened)
  | readDomains : s.phase r = .opened →
      SubmitStep sub s r .readDomains
        (s.move r (.domainsRead ((sub r).allDomainStrs.filterMap (s.domains.view r))))
  | createDomains {found domains} : s.phase r = .domainsRead found →
      s.domains.insertAll r Domain.normalizedDomain
        ((missingNames (sub r) found).map (sub r).domainRow) = some domains →
      SubmitStep sub s r .createDomains ({ s with domains := domains }.move r
        (.domainsCreated (found ++ (missingNames (sub r) found).map (sub r).domainRow)))
  | reactivateDomains {known} : s.phase r = .domainsCreated known →
      (∀ name ∈ reactivatedNames (sub r) known, s.domains.free r name = true) →
      (∀ id ∈ reactivatedIds (sub r) known, s.details.free r id = true) →
      SubmitStep sub s r .reactivateDomains ({ s with
        domains := s.domains.writeAll r (reactivatedNames (sub r) known) (reactivation (sub r).now)
        details := s.details.deleteAll r (reactivatedIds (sub r) known) }.move r
          (.domainsReactivated known))
  | insertTasks {known valid invalid tasks} : s.phase r = .domainsReactivated known →
      validTasks (sub r) known = some valid → invalidTasks (sub r) known = some invalid →
      s.tasks.insertAll r Task.id (valid ++ invalid) = some tasks →
      SubmitStep sub s r .insertTasks ({ s with tasks := tasks }.move r .tasksInserted)
  | commit : s.phase r = .tasksInserted →
      SubmitStep sub s r (.commit true)
        ((s.commit r).move r (.finished true (.accepted (sub r).jobUuid)))
  | derailed {action t} : Derailed sub s r → SubmitStep sub s r action t

variable {sub : ι → Submission} {s t : IngestState ι} {r : ι} {action : IngestAction}

theorem ingestNext_of_submitNext (h : submitNext sub s (r, action) = some t) :
    ingestNext sub s (r, action) = some t := by
  unfold submitNext at h
  split at h
  next => cases h
  next => cases h
  next => exact (Option.ite_none_right_eq_some.mp h).2
  next => exact h

theorem submitNext_cases (h : submitNext sub s (r, action) = some t) :
    SubmitStep sub s r action t := by
  have hn := ingestNext_of_submitNext h
  unfold ingestNext at hn
  dsimp only at hn
  split at hn
  next hp =>
    obtain ⟨jobs, hj, rfl⟩ := Option.map_eq_some_iff.mp hn
    exact .insertJob hp hj
  next => cases h
  next => cases h
  next scope hp hs =>
    obtain ⟨free, hn⟩ := Option.ite_none_right_eq_some.mp hn
    split at hn
    next records hr =>
      cases Option.some.inj hn
      exact .insertRecord hp hs hr
    next refused =>
      refine .derailed (.record hp hs fun unused => ?_)
      simp [Store.insert, free, unused] at refused
  next hp _ => exact .derailed (.refused hp)
  next hp =>
    cases Option.some.inj hn
    exact .readDomains hp
  next found hp =>
    obtain ⟨domains, hd, rfl⟩ := Option.map_eq_some_iff.mp hn
    exact .createDomains hp hd
  next known hp =>
    obtain ⟨free, hn⟩ := Option.ite_none_right_eq_some.mp hn
    cases Option.some.inj hn
    exact .reactivateDomains hp free.1 free.2
  next known hp =>
    obtain ⟨valid, hv, hn⟩ := Option.bind_eq_some_iff.mp hn
    obtain ⟨invalid, hi, hn⟩ := Option.bind_eq_some_iff.mp hn
    obtain ⟨tasks, ht, rfl⟩ := Option.map_eq_some_iff.mp hn
    exact .insertTasks hp hv hi ht
  next answered hp =>
    cases answered with
    | false => cases h
    | true =>
      cases Option.some.inj hn
      exact .commit hp
  next jobId answered hp =>
    cases answered with
    | false => cases h
    | true => exact .derailed (.replaying hp)
  next => cases hn
  next hp =>
    obtain ⟨duplicate, _⟩ := Option.ite_none_right_eq_some.mp h
    unfold duplicateName at duplicate
    split at duplicate
    next found hf =>
      obtain ⟨name, hm, stored⟩ := List.any_eq_true.mp duplicate
      exact .derailed (.name hf hm (Option.isSome_iff_ne_none.mp stored))
    next => cases duplicate
  next => cases hn

/-- A committed domain is the one that was read, and was not deactivated. -/
def Agrees (committed : String → Option Domain) (name : String) (d : Domain) : Prop :=
  ∃ d', committed name = some d' ∧ d'.id = d.id ∧ (d.isActive = true → d'.isActive = true)

/-- The rows of `domain` that a request holds after it has created the missing
names, and with `reactivated` after it has reactivated the inactive ones. -/
structure DomainLocks (sub : Submission) (domains : Store ι String Domain) (r : ι)
    (known : List Domain) (reactivated : Bool) : Prop where
  locks : ∀ name row, domains.locks name = some (r, row) ↔
    (name ∈ sub.allDomainStrs ∧ domains.committed name = none ∧
      row = some (sub.domainRow name)) ∨
    (reactivated = true ∧ name ∈ reactivatedNames sub known ∧
      row = (domains.committed name).map (reactivation sub.now))
  rows : ∀ name ∈ sub.allDomainStrs, ∃ d, findDomain known name = some d ∧
    (domains.committed name = none ∧ d = sub.domainRow name ∨ Agrees domains.committed name d)
  unchanged : reactivated = true → ∀ name ∈ reactivatedNames sub known,
    domains.committed name = findDomain known name

def DetailLocks (sub : Submission) (details : Store ι DomainId DomainDetail) (r : ι)
    (known : List Domain) : Prop :=
  ∀ id row, details.locks id = some (r, row) ↔ id ∈ reactivatedIds sub known ∧ row = none

def TaskLocks (sub : Submission) (tasks : Store ι TaskId Task) (r : ι) (known : List Domain) : Prop :=
  ∃ valid invalid, validTasks sub known = some valid ∧ invalidTasks sub known = some invalid ∧
    ∀ k row, tasks.locks k = some (r, row) ↔ ∃ t ∈ valid ++ invalid, t.id = k ∧ row = some t

/-- What holds of a request that has not been derailed. -/
def LookupOk (sub : Submission) (s : IngestState ι) (r : ι) : IngestPhase → Prop
  | .ready | .opened => s.domains.Quiet r ∧ s.details.Quiet r ∧ s.tasks.Quiet r
  | .jobInserted => (s.domains.Quiet r ∧ s.details.Quiet r ∧ s.tasks.Quiet r) ∧ sub.scope.isSome
  | .domainsRead found => (s.domains.Quiet r ∧ s.details.Quiet r ∧ s.tasks.Quiet r) ∧
    ∀ name d, findDomain found name = some d →
      name ∈ sub.allDomainStrs ∧ Agrees s.domains.committed name d
  | .domainsCreated known =>
    DomainLocks sub s.domains r known false ∧ s.details.Quiet r ∧ s.tasks.Quiet r
  | .domainsReactivated known =>
    DomainLocks sub s.domains r known true ∧ DetailLocks sub s.details r known ∧ s.tasks.Quiet r
  | .tasksInserted => ∃ known,
    DomainLocks sub s.domains r known true ∧ DetailLocks sub s.details r known ∧ TaskLocks sub s.tasks r known
  | .finished true response =>
    (s.domains.Quiet r ∧ s.details.Quiet r ∧ s.tasks.Quiet r) ∧ response = .accepted sub.jobUuid
  | .finished false _ | .refused | .replaying _ => False

theorem mem_reactivatedNames {sub : Submission} {known : List Domain} {name : String} :
    name ∈ reactivatedNames sub known ↔ name ∈ sub.finalValidDomains.map NormalizedDomain.value ∧
      ∃ d, findDomain known name = some d ∧ d.isActive = false := by
  simp [reactivatedNames, Option.any_eq_true]

theorem mem_allDomainStrs_of_reactivated {sub : Submission} {known : List Domain} {name : String}
    (h : name ∈ reactivatedNames sub known) : name ∈ sub.allDomainStrs := by
  obtain ⟨hv, _⟩ := mem_reactivatedNames.mp h
  obtain ⟨d, hd, rfl⟩ := List.mem_map.mp hv
  exact mem_allDomainStrs_valid hd

theorem Agrees.trans {c c' : String → Option Domain} {name : String} {d : Domain}
    (h : Agrees c name d) (later : ∀ e, c name = some e → Agrees c' name e) : Agrees c' name d := by
  obtain ⟨e, he, hid, active⟩ := h
  obtain ⟨e', he', hid', active'⟩ := later e he
  exact ⟨e', he', hid'.trans hid, fun ha => active' (active ha)⟩

variable {known : List Domain} {reactivated : Bool}

/-- What a request commits keeps every domain and deactivates none. -/
theorem DomainLocks.agrees_view {sub : Submission} (h : DomainLocks sub s.domains r known reactivated)
    {name : String} {d : Domain} (hd : s.domains.committed name = some d) :
    Agrees (s.domains.view r) name d := by
  by_cases held : ∃ row, s.domains.locks name = some (r, row)
  · obtain ⟨row, hl⟩ := held
    have seen := Store.view_of_held hl
    rcases (h.locks name row).mp hl with ⟨_, absent, _⟩ | ⟨_, _, rfl⟩
    · rw [hd] at absent
      cases absent
    · rw [hd] at seen
      exact ⟨reactivation sub.now d, seen, rfl, fun _ => rfl⟩
  · have seen : s.domains.view r name = s.domains.committed name :=
      Store.view_of_unheld fun row hl => held ⟨row, hl⟩
    exact ⟨d, seen.trans hd, rfl, id⟩

/-- What a step of another request leaves to request `r`. -/
structure Elsewhere (r : ι) (s t : IngestState ι) : Prop where
  domains : ∀ name row, t.domains.locks name = some (r, row) ↔ s.domains.locks name = some (r, row)
  details : ∀ id row, t.details.locks id = some (r, row) ↔ s.details.locks id = some (r, row)
  tasks : ∀ k row, t.tasks.locks k = some (r, row) ↔ s.tasks.locks k = some (r, row)
  fixed : ∀ name row, s.domains.locks name = some (r, row) →
    t.domains.committed name = s.domains.committed name
  advance : ∀ name d, s.domains.committed name = some d → Agrees t.domains.committed name d

omit [DecidableEq ι] in
theorem DomainLocks.elsewhere {sub : Submission} (h : DomainLocks sub s.domains r known reactivated)
    (e : Elsewhere r s t) : DomainLocks sub t.domains r known reactivated := by
  have created : ∀ name ∈ sub.allDomainStrs, s.domains.committed name = none →
      t.domains.committed name = none := by
    intro name hn absent
    have held := (h.locks name _).mpr (Or.inl ⟨hn, absent, rfl⟩)
    exact (e.fixed name _ held).trans absent
  have changed : reactivated = true → ∀ name ∈ reactivatedNames sub known,
      t.domains.committed name = s.domains.committed name := by
    intro hr name hn
    exact e.fixed name _ ((h.locks name _).mpr (Or.inr ⟨hr, hn, rfl⟩))
  refine ⟨?_, ?_, ?_⟩
  · intro name row
    rw [e.domains, h.locks]
    constructor
    · rintro (⟨hn, absent, rfl⟩ | ⟨hr, hn, rfl⟩)
      · exact Or.inl ⟨hn, created name hn absent, rfl⟩
      · exact Or.inr ⟨hr, hn, by rw [changed hr name hn]⟩
    · rintro (⟨hn, absent, rfl⟩ | ⟨hr, hn, rfl⟩)
      · refine Or.inl ⟨hn, ?_, rfl⟩
        by_contra present
        obtain ⟨d, hd⟩ := Option.ne_none_iff_exists'.mp present
        obtain ⟨d', hd', _⟩ := e.advance name d hd
        rw [absent] at hd'
        cases hd'
      · exact Or.inr ⟨hr, hn, by rw [changed hr name hn]⟩
  · intro name hn
    obtain ⟨d, hd, ⟨absent, rfl⟩ | agrees⟩ := h.rows name hn
    · exact ⟨_, hd, Or.inl ⟨created name hn absent, rfl⟩⟩
    · exact ⟨d, hd, Or.inr (agrees.trans (e.advance name))⟩
  · intro hr name hn
    exact (changed hr name hn).trans (h.unchanged hr name hn)

omit [DecidableEq ι] in
theorem LookupOk.elsewhere {sub : Submission} {phase : IngestPhase} (h : LookupOk sub s r phase)
    (e : Elsewhere r s t) : LookupOk sub t r phase := by
  have domains : s.domains.Quiet r → t.domains.Quiet r := fun quiet name row hl =>
    quiet name row ((e.domains name row).mp hl)
  have details : s.details.Quiet r → t.details.Quiet r := fun quiet id row hl =>
    quiet id row ((e.details id row).mp hl)
  have tasks : s.tasks.Quiet r → t.tasks.Quiet r := fun quiet k row hl =>
    quiet k row ((e.tasks k row).mp hl)
  have quiet : s.domains.Quiet r ∧ s.details.Quiet r ∧ s.tasks.Quiet r →
      t.domains.Quiet r ∧ t.details.Quiet r ∧ t.tasks.Quiet r :=
    fun ⟨hd, hdet, ht⟩ => ⟨domains hd, details hdet, tasks ht⟩
  have detailLocks : ∀ known, DetailLocks sub s.details r known → DetailLocks sub t.details r known :=
    fun _ h id row => (e.details id row).trans (h id row)
  cases phase with
  | ready => exact quiet h
  | opened => exact quiet h
  | jobInserted => exact ⟨quiet h.1, h.2⟩
  | domainsRead found =>
    refine ⟨quiet h.1, fun name d hd => ?_⟩
    obtain ⟨hn, agrees⟩ := h.2 name d hd
    exact ⟨hn, agrees.trans (e.advance name)⟩
  | domainsCreated known => exact ⟨h.1.elsewhere e, details h.2.1, tasks h.2.2⟩
  | domainsReactivated known =>
    exact ⟨h.1.elsewhere e, detailLocks known h.2.1, tasks h.2.2⟩
  | tasksInserted =>
    obtain ⟨known, hd, hdet, valid, invalid, hv, hi, ht⟩ := h
    exact ⟨known, hd.elsewhere e, detailLocks known hdet, valid, invalid, hv, hi,
      fun k row => (e.tasks k row).trans (ht k row)⟩
  | finished wrote response =>
    cases wrote with
    | true => exact ⟨quiet h.1, h.2⟩
    | false => exact h
  | refused => exact h
  | replaying jobId => exact h

theorem mem_missingNames {sub : Submission} {found : List Domain} {name : String} :
    name ∈ missingNames sub found ↔ name ∈ sub.allDomainStrs ∧ findDomain found name = none := by
  simp [missingNames]

theorem findDomain_created (sub : Submission) {names : List String} {name : String}
    (h : name ∈ names) : findDomain (names.map sub.domainRow) name = some (sub.domainRow name) := by
  have same : (fun d : Domain => decide (d.normalizedDomain = name)) ∘ sub.domainRow =
      fun n => decide (n = name) := rfl
  unfold findDomain
  rw [List.find?_map, same]
  cases hf : names.find? fun n => decide (n = name) with
  | none =>
    have unequal := List.find?_eq_none.mp hf name h
    simp at unequal
  | some n =>
    have eq : n = name := by simpa using List.find?_some hf
    rw [eq, Option.map_some]

theorem lookup_readDomains {sub : Submission}
    (named : ∀ name d, s.domains.committed name = some d → d.normalizedDomain = name)
    (quiet : s.domains.Quiet r) {name : String} {d : Domain}
    (h : findDomain (sub.allDomainStrs.filterMap (s.domains.view r)) name = some d) :
    name ∈ sub.allDomainStrs ∧ Agrees s.domains.committed name d := by
  obtain ⟨n, hn, seen⟩ := List.mem_filterMap.mp (List.mem_of_find?_eq_some h)
  rw [Store.view_of_unheld (quiet n)] at seen
  have same : n = name := (named n d seen).symm.trans (findDomain_name h)
  subst same
  exact ⟨hn, d, seen, rfl, id⟩

theorem locks_createDomains {sub : Submission} {found : List Domain} {domains : Store ι String Domain}
    (ok : LookupOk sub s r (.domainsRead found))
    (absent : ∀ name ∈ missingNames sub found, s.domains.committed name = none)
    (h : s.domains.insertAll r Domain.normalizedDomain
      ((missingNames sub found).map sub.domainRow) = some domains) :
    DomainLocks sub domains r
      (found ++ (missingNames sub found).map sub.domainRow) false := by
  obtain ⟨⟨quiet, _, _⟩, seen⟩ := ok
  have same : domains.committed = s.domains.committed := Store.insertAll_committed h
  have missing_iff : ∀ name, name ∈ missingNames sub found ↔
      name ∈ sub.allDomainStrs ∧ domains.committed name = none := by
    intro name
    rw [same]
    constructor
    · intro hn
      exact ⟨(mem_missingNames.mp hn).1, absent name hn⟩
    · rintro ⟨hn, none⟩
      refine mem_missingNames.mpr ⟨hn, ?_⟩
      by_contra present
      obtain ⟨d, hd⟩ := Option.ne_none_iff_exists'.mp present
      obtain ⟨_, d', hd', _⟩ := seen name d hd
      rw [none] at hd'
      cases hd'
  refine ⟨?_, ?_, fun h => by cases h⟩
  · intro name row
    rw [Store.insertAll_locks h fun k => quiet k none, or_iff_right (quiet name row)]
    constructor
    · rintro ⟨x, hx, rfl, rfl⟩
      obtain ⟨n, hn, rfl⟩ := List.mem_map.mp hx
      obtain ⟨hall, none⟩ := (missing_iff n).mp hn
      exact Or.inl ⟨hall, none, rfl⟩
    · rintro (⟨hn, none, rfl⟩ | ⟨hf, _⟩)
      · exact ⟨_, List.mem_map_of_mem ((missing_iff name).mpr ⟨hn, none⟩), rfl, rfl⟩
      · cases hf
  · intro name hn
    have split : findDomain (found ++ (missingNames sub found).map sub.domainRow) name =
        (findDomain found name).or (findDomain ((missingNames sub found).map sub.domainRow) name) :=
      List.find?_append
    rw [split]
    cases hf : findDomain found name with
    | some d =>
      refine ⟨d, rfl, Or.inr ?_⟩
      rw [same]
      exact (seen name d hf).2
    | none =>
      have created := mem_missingNames.mpr ⟨hn, hf⟩
      exact ⟨_, findDomain_created sub created, Or.inl ⟨((missing_iff name).mp created).2, rfl⟩⟩

theorem locks_reactivateDomains {sub : Submission} {known : List Domain}
    (ok : DomainLocks sub s.domains r known false)
    (unchanged : ∀ name ∈ reactivatedNames sub known,
      s.domains.committed name = findDomain known name) :
    DomainLocks sub (s.domains.writeAll r (reactivatedNames sub known) (reactivation sub.now)) r
      known true := by
  have present : ∀ name ∈ reactivatedNames sub known, s.domains.committed name ≠ none := by
    intro name hn absent
    obtain ⟨_, d, hd, _⟩ := mem_reactivatedNames.mp hn
    rw [unchanged name hn, hd] at absent
    cases absent
  refine ⟨?_, ok.rows, fun _ => unchanged⟩
  intro name row
  by_cases hn : name ∈ reactivatedNames sub known
  · have unheld : s.domains.view r name = s.domains.committed name := by
      apply Store.view_of_unheld
      intro row hl
      rcases (ok.locks name row).mp hl with ⟨_, absent, _⟩ | ⟨hf, _⟩
      · exact present name hn absent
      · cases hf
    rw [Store.writeAll_locks_of_mem hn, unheld]
    constructor
    · intro he
      exact Or.inr ⟨rfl, hn, (Prod.mk.inj (Option.some.inj he)).2.symm⟩
    · rintro (⟨_, absent, _⟩ | ⟨_, _, rfl⟩)
      · exact absurd absent (present name hn)
      · rfl
  · rw [Store.writeAll_locks_of_not_mem hn, ok.locks]
    constructor
    · rintro (created | ⟨hf, _⟩)
      · exact Or.inl created
      · cases hf
    · rintro (created | ⟨_, listed, _⟩)
      · exact Or.inl created
      · exact absurd listed hn

theorem lookup_own (named : ∀ name d, s.domains.committed name = some d → d.normalizedDomain = name)
    (ok : LookupOk (sub r) s r (s.phase r)) (holds : LookupHolds sub s (r, action))
    (onTrack : ¬Derailed sub s r) (h : SubmitStep sub s r action t) :
    LookupOk (sub r) t r (t.phase r) := by
  cases h with
  | insertJob hp hj =>
    rw [hp] at ok
    rw [move_phase_self]
    split
    next keyed => exact ⟨ok, keyed⟩
    next => exact ok
  | insertRecord hp hs hr =>
    rw [hp] at ok
    rw [move_phase_self]
    exact ok.1
  | readDomains hp =>
    rw [hp] at ok
    rw [move_phase_self]
    exact ⟨ok, fun name d hd => lookup_readDomains named ok.1 hd⟩
  | @createDomains found domains hp hd =>
    rw [hp] at ok
    simp only [LookupHolds, hp, IngestPhase.StillFound] at holds
    rw [move_phase_self]
    exact ⟨locks_createDomains ok holds hd, ok.1.2⟩
  | @reactivateDomains known hp free free' =>
    rw [hp] at ok
    simp only [LookupHolds, hp, IngestPhase.StillFound] at holds
    rw [move_phase_self]
    obtain ⟨locks, details, tasks⟩ := ok
    refine ⟨locks_reactivateDomains locks holds, ?_, tasks⟩
    intro id row
    show (if id ∈ reactivatedIds (sub r) known then some (r, none) else s.details.locks id) =
      some (r, row) ↔ _
    by_cases hid : id ∈ reactivatedIds (sub r) known
    · rw [if_pos hid]
      simp [hid, eq_comm]
    · rw [if_neg hid]
      simp [hid, details id row]
  | @insertTasks known valid invalid tasks hp hv hi ht =>
    rw [hp] at ok
    rw [move_phase_self]
    obtain ⟨locks, details, quiet⟩ := ok
    refine ⟨known, locks, details, valid, invalid, hv, hi, ?_⟩
    intro k row
    show tasks.locks k = some (r, row) ↔ _
    rw [Store.insertAll_locks ht fun k => quiet k none, or_iff_right (quiet k row)]
  | commit hp =>
    rw [move_phase_self]
    exact ⟨⟨Store.quiet_commit, Store.quiet_commit, Store.quiet_commit⟩, rfl⟩
  | derailed hd => exact absurd hd onTrack

end Steps

/-- The requests carry different idempotency keys or none, none of them stored
yet, and `uuid4` has repeated no identifier. -/
structure Independent {ι : Type*} (sub : ι → Submission) (db : Db) : Prop where
  jobFresh : ∀ r, db.jobs.get (sub r).jobUuid = none
  jobInjective : Function.Injective fun r => (sub r).jobUuid
  scopeFresh : ∀ r scope, (sub r).scope = some scope → db.idempotencyRecords.get scope = none
  scopeInjective : ∀ r r' scope, (sub r).scope = some scope → (sub r').scope = some scope → r = r'
  domainFresh : ∀ r, ∀ name ∈ (sub r).allDomainStrs, ∀ d ∈ db.domains.rows,
    d.id ≠ (sub r).domainUuid name
  domainInjective : ∀ r r', ∀ name ∈ (sub r).allDomainStrs, ∀ name' ∈ (sub r').allDomainStrs,
    (sub r).domainUuid name = (sub r').domainUuid name' → r = r' ∧ name = name'
  taskFresh : ∀ r n, db.tasks.get ((sub r).taskUuid n) = none
  taskInjective : Function.Injective fun p : ι × Nat => (sub p.1).taskUuid p.2

theorem Independent.taskUuid_injective {ι : Type*} {sub : ι → Submission} {db : Db}
    (ind : Independent sub db) (r : ι) : Function.Injective (sub r).taskUuid := by
  intro n n' same
  have pairs : (r, n) = (r, n') := ind.taskInjective same
  exact (Prod.mk.inj pairs).2

/-- The statements that a request has still to run, at most. -/
def IngestPhase.remaining : IngestPhase → Nat
  | .ready => 7
  | .jobInserted => 6
  | .opened => 5
  | .domainsRead _ => 4
  | .domainsCreated _ => 3
  | .domainsReactivated _ => 2
  | .tasksInserted => 1
  | .refused | .replaying _ | .finished _ _ => 0

section Runs

variable {ι : Type*} [DecidableEq ι] {sub : ι → Submission} {db : Db} {s t : IngestState ι} {r : ι}
variable {action : IngestAction}

structure SubmitInv (sub : ι → Submission) (db : Db) (s : IngestState ι) : Prop where
  ingest : IngestInv sub (ingestInit db) s
  lookup : ∀ r, LookupOk (sub r) s r (s.phase r)
  named : ∀ name d, s.domains.committed name = some d → d.normalizedDomain = name

theorem submitInv_init : SubmitInv sub db (ingestInit db) :=
  ⟨ingestInv_init, fun _ => ⟨Store.quiet_idle, Store.quiet_idle, Store.quiet_idle⟩,
    fun _ _ h => findDomain_name h⟩

theorem not_derailed (ind : Independent sub db) (inv : SubmitInv sub db s)
    (holds : LookupHolds sub s (r, action)) : ¬Derailed sub s r := by
  intro h
  have ok := inv.lookup r
  cases h with
  | @record scope hp hs used =>
    have request := inv.ingest.requests r
    rw [hp] at request
    rw [Store.view_of_unheld (request.2.1 scope)] at used
    obtain ⟨record, stored⟩ := Option.ne_none_iff_exists'.mp used
    rcases inv.ingest.records scope record stored with old | ⟨r', hw, hs', _⟩
    · have fresh : (ingestInit db : IngestState ι).records.committed scope = none :=
        ind.scopeFresh r scope hs
      rw [fresh] at old
      cases old
    · have same : r' = r := ind.scopeInjective r' r scope hs' hs
      rw [same, hp] at hw
      cases hw
  | refused hp =>
    rw [hp] at ok
    exact ok
  | replaying hp =>
    rw [hp] at ok
    exact ok
  | @name found name hp hm stored =>
    simp only [LookupHolds, hp, IngestPhase.StillFound] at holds
    exact stored (holds name hm)

/-- A commit keeps every domain and deactivates none. -/
theorem agrees_step (inv : SubmitInv sub db s) (h : ingestNext sub s (r, action) = some t)
    {name : String} {d : Domain} (hd : s.domains.committed name = some d) :
    Agrees t.domains.committed name d := by
  have effect := ingestNext_effect (inv.ingest.requests r) h
  rcases effect.frame.domains.committed with same | committed
  · rw [same]
    exact ⟨d, hd, rfl, id⟩
  · rcases effect.commits with ⟨same, _⟩ | ⟨hp, _⟩
    · have domains : t.domains.committed = s.domains.committed :=
        congrArg (fun tables => tables.2.2.1) same
      rw [domains]
      exact ⟨d, hd, rfl, id⟩
    · have ok := inv.lookup r
      rw [hp] at ok
      obtain ⟨known, locks, _⟩ := ok
      rw [committed]
      exact locks.agrees_view hd

theorem elsewhere_step {r' : ι} (inv : SubmitInv sub db s)
    (h : ingestNext sub s (r, action) = some t) (hne : r' ≠ r) : Elsewhere r' s t := by
  have frame := (ingestNext_effect (inv.ingest.requests r) h).frame
  refine ⟨fun _ _ => frame.domains.others _ _ _ hne, fun _ _ => frame.details.others _ _ _ hne,
    fun _ _ => frame.tasks.others _ _ _ hne, ?_, fun _ _ => agrees_step inv h⟩
  intro name row held
  rcases frame.domains.committed with same | committed
  · rw [same]
  · rw [committed]
    refine Store.view_of_unheld fun row' hl => ?_
    exact hne (Prod.mk.inj (Option.some.inj (held.symm.trans hl))).1

theorem named_step (inv : SubmitInv sub db s) (h : ingestNext sub s (r, action) = some t)
    {name : String} {d : Domain} (hd : t.domains.committed name = some d) :
    d.normalizedDomain = name := by
  have effect := ingestNext_effect (inv.ingest.requests r) h
  rcases effect.frame.domains.appears hd with before | ⟨held, _⟩
  · exact inv.named name d before
  · rcases effect.commits with ⟨same, _⟩ | ⟨hp, _⟩
    · have domains : t.domains.committed = s.domains.committed :=
        congrArg (fun tables => tables.2.2.1) same
      rw [domains] at hd
      exact inv.named name d hd
    · have ok := inv.lookup r
      rw [hp] at ok
      obtain ⟨known, locks, _⟩ := ok
      rcases (locks.locks name _).mp (Store.held_eq_some_iff.mp held) with ⟨_, _, row⟩ | ⟨_, _, row⟩
      · rw [Option.some.inj row]
        rfl
      · obtain ⟨old, stored, rfl⟩ := Option.map_eq_some_iff.mp row.symm
        exact inv.named name old stored

theorem submitInv_step (ind : Independent sub db) (inv : SubmitInv sub db s)
    (holds : LookupHolds sub s (r, action)) (h : submitNext sub s (r, action) = some t) :
    SubmitInv sub db t := by
  have hn := ingestNext_of_submitNext h
  refine ⟨ingestInv_step inv.ingest hn, ?_, fun _ _ hd => named_step inv hn hd⟩
  intro r'
  by_cases hr : r' = r
  · subst hr
    exact lookup_own inv.named (inv.lookup r') holds (not_derailed ind inv holds) (submitNext_cases h)
  · rw [(ingestNext_effect (inv.ingest.requests r) hn).frame.phase r' hr]
    exact (inv.lookup r').elsewhere (elsewhere_step inv hn hr)

variable {trace : List (IngestState ι × ι × IngestAction)}

theorem submit_run (ind : Independent sub db) (run : SubmitRun sub (ingestInit db) trace t)
    (guard : ∀ p ∈ trace, LookupHolds sub p.1 p.2) : SubmitInv sub db t :=
  run.guarded (LookupHolds sub) submitInv_init
    (fun {_ a _} inv holds h => by
      obtain ⟨r, action⟩ := a
      exact submitInv_step ind inv holds h) guard

theorem remaining_step (h : SubmitStep sub s r action t) (onTrack : ¬Derailed sub s r) :
    (t.phase r).remaining + 1 ≤ (s.phase r).remaining := by
  cases h with
  | insertJob hp =>
    rw [hp, move_phase_self]
    split
    · exact Nat.le_refl 7
    · exact Nat.le_succ 6
  | insertRecord hp => rw [hp, move_phase_self]; exact Nat.le_refl 6
  | readDomains hp => rw [hp, move_phase_self]; exact Nat.le_refl 5
  | createDomains hp => rw [hp, move_phase_self]; exact Nat.le_refl 4
  | reactivateDomains hp => rw [hp, move_phase_self]; exact Nat.le_refl 3
  | insertTasks hp => rw [hp, move_phase_self]; exact Nat.le_refl 2
  | commit hp => rw [hp, move_phase_self]; exact Nat.le_refl 1
  | derailed hd => exact absurd hd onTrack

/-- No request runs more than seven statements. -/
theorem remaining_run (ind : Independent sub db) (run : SubmitRun sub (ingestInit db) trace t)
    (guard : ∀ p ∈ trace, LookupHolds sub p.1 p.2) (r : ι) :
    (trace.countP fun p => decide (p.2.1 = r)) + (t.phase r).remaining ≤ 7 := by
  induction run with
  | start => exact Nat.le_refl 7
  | @step trace s step t run h ih =>
    obtain ⟨last, before⟩ := List.forall_mem_cons.mp guard
    have shorter := ih before
    have inv := submit_run ind run before
    obtain ⟨r', action⟩ := step
    by_cases hr : r' = r
    · subst hr
      have fewer := remaining_step (submitNext_cases h) (not_derailed ind inv last)
      rw [List.countP_cons_of_pos (by simp)]
      omega
    · have effect := ingestNext_effect (inv.ingest.requests r') (ingestNext_of_submitNext h)
      rw [List.countP_cons_of_neg (by simpa using hr), effect.frame.phase r fun e => hr e.symm]
      exact shorter

end Runs

end DomainProcessing
