import DomainProcessing.SerialSubmissions
import Mathlib.Data.List.Permutation

namespace DomainProcessing

open Tables RowLocks Runs

section Serial

variable {ι : Type*} [DecidableEq ι] {sub : ι → Submission} {db after : Db} {order : List ι}
variable {s t : IngestState ι} {r : ι} {action : IngestAction}

/-- The committed rows are those that the finished requests leave, run one after
the other in the order of their commits. -/
structure SerialUpTo (sub : ι → Submission) (db : Db) (s : IngestState ι) (order : List ι)
    (after : Db) : Prop where
  serial : Serial sub db order after
  nodup : order.Nodup
  finished : ∀ r, r ∈ order ↔ (s.phase r).wrote = true
  tables : TablesAre s after

omit [DecidableEq ι] in
theorem serialUpTo_init : SerialUpTo sub db (ingestInit db) [] db :=
  ⟨.start, List.nodup_nil, fun _ => by simp [ingestInit, IngestPhase.wrote], ⟨rfl, rfl, rfl, rfl, rfl⟩⟩

omit [DecidableEq ι] in
theorem TablesAre.of_snapshot (h : TablesAre s after) (same : t.snapshot = s.snapshot) :
    TablesAre t after := by
  obtain ⟨hj, same⟩ := Prod.mk.inj same
  obtain ⟨hr, same⟩ := Prod.mk.inj same
  obtain ⟨hd, same⟩ := Prod.mk.inj same
  obtain ⟨hdet, ht⟩ := Prod.mk.inj same
  exact ⟨hj.trans h.jobs, hr.trans h.records, hd.trans h.domains, hdet.trans h.details,
    ht.trans h.tasks⟩

theorem commits_of_tasksInserted (h : SubmitStep sub s r action t) (onTrack : ¬Derailed sub s r)
    (hp : s.phase r = .tasksInserted) :
    t = (s.commit r).move r (.finished true (.accepted (sub r).jobUuid)) := by
  cases h with
  | commit => rfl
  | derailed hd => exact absurd hd onTrack
  | insertJob hp' => rw [hp] at hp'; cases hp'
  | insertRecord hp' => rw [hp] at hp'; cases hp'
  | readDomains hp' => rw [hp] at hp'; cases hp'
  | createDomains hp' => rw [hp] at hp'; cases hp'
  | reactivateDomains hp' => rw [hp] at hp'; cases hp'
  | insertTasks hp' => rw [hp] at hp'; cases hp'

theorem serial_step (ind : Independent sub db) (inv : SubmitInv sub db s)
    (upTo : SerialUpTo sub db s order after) (holds : LookupHolds sub s (r, action))
    (h : submitNext sub s (r, action) = some t) :
    ∃ order' after', SerialUpTo sub db t order' after' := by
  have hn := ingestNext_of_submitNext h
  have effect := ingestNext_effect (inv.ingest.requests r) hn
  have others : ∀ r', r' ≠ r → ((t.phase r').wrote = true ↔ (s.phase r').wrote = true) :=
    fun r' hr => by rw [effect.frame.phase r' hr]
  rcases effect.commits with ⟨same, idle⟩ | ⟨hp, hw⟩
  · refine ⟨order, after, upTo.serial, upTo.nodup, fun r' => ?_, upTo.tables.of_snapshot same⟩
    rw [upTo.finished]
    by_cases hr : r' = r
    · subst hr
      rw [idle]
      constructor
      · intro hw
        rw [wrote_mono (inv.ingest.requests r') hn hw] at idle
        cases idle
      · intro hw
        cases hw
    · exact (others r' hr).symm
  · have unfinished : r ∉ order := by
      rw [upTo.finished, hp]
      exact Bool.false_ne_true
    obtain ⟨after', accepted, tables⟩ :=
      createJob_of_tasksInserted ind inv upTo.tables upTo.serial unfinished hp
    have committed := commits_of_tasksInserted (submitNext_cases h) (not_derailed ind inv holds) hp
    refine ⟨r :: order, after', upTo.serial.next accepted, List.nodup_cons.mpr ⟨unfinished, upTo.nodup⟩,
      fun r' => ?_, ?_⟩
    · by_cases hr : r' = r
      · subst hr
        exact ⟨fun _ => hw, fun _ => List.mem_cons_self⟩
      · rw [List.mem_cons, or_iff_right hr, upTo.finished, others r' hr]
    · rw [committed]
      exact ⟨tables.jobs, tables.records, tables.domains, tables.details, tables.tasks⟩

variable {trace : List (IngestState ι × ι × IngestAction)}

theorem serial_run (ind : Independent sub db) (run : SubmitRun sub (ingestInit db) trace t)
    (guard : ∀ p ∈ trace, LookupHolds sub p.1 p.2) : ∃ order after, SerialUpTo sub db t order after := by
  induction run with
  | start => exact ⟨[], db, serialUpTo_init⟩
  | @step trace s step t run h ih =>
    obtain ⟨last, before⟩ := List.forall_mem_cons.mp guard
    obtain ⟨order, after, upTo⟩ := ih before
    obtain ⟨r, action⟩ := step
    exact serial_step ind (submit_run ind run before) upTo last h

end Serial

section Progress

variable {ι : Type*} {sub : ι → Submission} {db after : Db} {order : List ι}
variable {s : IngestState ι} {r : ι}

theorem exists_mapM {α β : Type*} {f : α → Option β} {xs : List α} (h : ∀ x ∈ xs, ∃ y, f x = some y) :
    ∃ ys, xs.mapM f = some ys := by
  induction xs with
  | nil => exact ⟨[], rfl⟩
  | cons x xs ih =>
    obtain ⟨⟨y, hy⟩, hxs⟩ := List.forall_mem_cons.mp h
    obtain ⟨ys, hys⟩ := ih hxs
    refine ⟨y :: ys, ?_⟩
    rw [List.mapM_cons, hy, hys]
    rfl

theorem built_of_found {sub : Submission} {known : List Domain}
    (found : ∀ name ∈ sub.allDomainStrs, ∃ d, findDomain known name = some d) :
    ∃ valid invalid, validTasks sub known = some valid ∧ invalidTasks sub known = some invalid := by
  have hv : ∃ valid, validTasks sub known = some valid := by
    refine exists_mapM fun ⟨d, i⟩ hp => ?_
    obtain ⟨row, hr⟩ := found d.value (mem_allDomainStrs_valid (List.fst_mem_of_mem_zipIdx hp))
    exact ⟨_, Option.map_eq_some_iff.mpr ⟨row, hr, rfl⟩⟩
  have hi : ∃ invalid, invalidTasks sub known = some invalid := by
    refine exists_mapM fun ⟨d, i⟩ hp => ?_
    obtain ⟨row, hr⟩ :=
      found (Submission.invalidName d) (mem_allDomainStrs_invalid (List.fst_mem_of_mem_zipIdx hp))
    exact ⟨_, Option.map_eq_some_iff.mpr ⟨row, hr, rfl⟩⟩
  obtain ⟨valid, hv⟩ := hv
  obtain ⟨invalid, hi⟩ := hi
  exact ⟨valid, invalid, hv, hi⟩

/-- Where a request stands, seen from the locks that it may hold. -/
def IngestPhase.holds : IngestPhase → Nat
  | .domainsCreated _ => 1
  | .domainsReactivated _ => 2
  | .tasksInserted => 3
  | _ => 0

theorem LookupOk.tasks_quiet {sub : Submission} {phase : IngestPhase} (h : LookupOk sub s r phase)
    (early : phase.holds ≤ 2) : s.tasks.Quiet r := by
  cases phase with
  | ready => exact h.2.2
  | jobInserted => exact h.1.2.2
  | refused => exact h.elim
  | replaying jobId => exact h.elim
  | opened => exact h.2.2
  | domainsRead found => exact h.1.2.2
  | domainsCreated known => exact h.2.2
  | domainsReactivated known => exact h.2.2
  | tasksInserted => exact absurd early (by decide)
  | finished wrote response =>
    cases wrote with
    | true => exact h.1.2.2
    | false => exact h.elim

theorem LookupOk.details_quiet {sub : Submission} {phase : IngestPhase} (h : LookupOk sub s r phase)
    (early : phase.holds ≤ 1) : s.details.Quiet r := by
  cases phase with
  | ready => exact h.2.1
  | jobInserted => exact h.1.2.1
  | refused => exact h.elim
  | replaying jobId => exact h.elim
  | opened => exact h.2.1
  | domainsRead found => exact h.1.2.1
  | domainsCreated known => exact h.2.1
  | domainsReactivated known => exact absurd early (Nat.not_succ_le_self 1)
  | tasksInserted => exact absurd early (by decide)
  | finished wrote response =>
    cases wrote with
    | true => exact h.1.2.1
    | false => exact h.elim

/-- Until it reactivates, a request holds only names that nobody has committed. -/
theorem LookupOk.domains_held {sub : Submission} {phase : IngestPhase} (h : LookupOk sub s r phase)
    (early : phase.holds ≤ 1) {name : String} {row : Option Domain}
    (hl : s.domains.locks name = some (r, row)) :
    phase.holds = 1 ∧ s.domains.committed name = none := by
  have quiet : s.domains.Quiet r → phase.holds = 1 ∧ s.domains.committed name = none :=
    fun quiet => absurd hl (quiet name row)
  cases phase with
  | ready => exact quiet h.1
  | jobInserted => exact quiet h.1.1
  | refused => exact h.elim
  | replaying jobId => exact h.elim
  | opened => exact quiet h.1
  | domainsRead found => exact quiet h.1.1
  | domainsCreated known =>
    rcases (h.1.locks name row).mp hl with ⟨_, absent, _⟩ | ⟨hf, _⟩
    · exact ⟨rfl, absent⟩
    · cases hf
  | domainsReactivated known => exact absurd early (Nat.not_succ_le_self 1)
  | tasksInserted => exact absurd early (by decide)
  | finished wrote response =>
    cases wrote with
    | true => exact quiet h.1.1
    | false => exact h.elim

theorem RequestOk.job_lock [DecidableEq ι] {sub : Submission} {phase : IngestPhase}
    (h : RequestOk sub s r phase)
    {k : JobId} {row : Option Job} (hl : s.jobs.locks k = some (r, row)) : k = sub.jobUuid := by
  have quiet : s.Quiet r → k = sub.jobUuid := fun quiet => absurd hl (quiet.1 k row)
  cases phase with
  | ready => exact quiet h
  | refused => exact quiet h
  | replaying jobId => exact quiet h.1
  | finished wrote response => cases wrote <;> exact quiet h.1
  | _ => exact ((h.1 k row).mp hl).1

theorem RequestOk.record_lock [DecidableEq ι] {sub : Submission} {phase : IngestPhase}
    (h : RequestOk sub s r phase)
    {scope : String × String} {row : Option IdempotencyRecord}
    (hl : s.records.locks scope = some (r, row)) : sub.scope = some scope := by
  have quiet : s.records.Quiet r → sub.scope = some scope := fun quiet => absurd hl (quiet scope row)
  cases phase with
  | ready => exact quiet h.2.1
  | refused => exact quiet h.2.1
  | replaying jobId => exact quiet h.1.2.1
  | jobInserted => exact quiet h.2.1
  | finished wrote response => cases wrote <;> exact quiet h.1.2.1
  | tasksInserted => exact ((h.2.1 scope row).mp hl).1
  | _ => exact ((h.2 scope row).mp hl).1

variable [DecidableEq ι]

theorem free_of_quiet {κ ρ : Type*} {store : Store ι κ ρ} (quiet : ∀ r, store.Quiet r) (r : ι) (k : κ) :
    store.free r k = true := by
  unfold Store.free
  cases hl : store.locks k with
  | none => rfl
  | some lock => exact absurd hl (quiet lock.1 k lock.2)

theorem submit_commit (hp : s.phase r = .tasksInserted) :
    (submitNext sub s (r, .commit true)).isSome = true := by
  simp only [submitNext, ingestNext, hp, Option.isSome_some]

theorem submit_insertTasks (ind : Independent sub db) (inv : SubmitInv sub db s)
    (upTo : SerialUpTo sub db s order after) (early : ∀ r, (s.phase r).holds ≤ 2) {known : List Domain}
    (hp : s.phase r = .domainsReactivated known) :
    (submitNext sub s (r, .insertTasks)).isSome = true := by
  have ok := inv.lookup r
  rw [hp] at ok
  obtain ⟨locks, _, quiet⟩ := ok
  obtain ⟨valid, invalid, hv, hi⟩ := built_of_found fun name hn =>
    (locks.rows name hn).imp fun _ h => h.1
  have unused : ∀ t ∈ valid ++ invalid, s.tasks.view r t.id = none := by
    intro t ht
    obtain ⟨n, drawn⟩ := taskId_of_built hv hi ht
    rw [Store.view_of_unheld (quiet t.id), upTo.tables.tasks, Table.get_eq_none_iff]
    intro stored
    obtain ⟨old, hold, same⟩ := List.mem_map.mp stored
    rcases serial_tasks upTo.serial hold with before | ⟨r', hr', n', drawn'⟩
    · refine Table.get_eq_none_iff.mp (ind.taskFresh r n) ?_
      rw [← drawn, ← same]
      exact List.mem_map_of_mem before
    · have equal : (r', n') = (r, n) := ind.taskInjective (drawn'.symm.trans (same.trans drawn))
      rw [(Prod.mk.inj equal).1, upTo.finished, hp] at hr'
      cases hr'
  obtain ⟨tasks, inserted⟩ := Store.insertAll_of_free
    (fun t _ => free_of_quiet (fun r => (inv.lookup r).tasks_quiet (early r)) r t.id)
    (nodup_taskIds (ind.taskUuid_injective r) hv hi) unused
  simp only [submitNext, ingestNext, hp, hv, hi, inserted, Option.bind_some, Option.map_some,
    Option.isSome_some]

theorem submit_reactivateDomains (inv : SubmitInv sub db s) (early : ∀ r, (s.phase r).holds ≤ 1)
    {known : List Domain} (hp : s.phase r = .domainsCreated known) :
    (submitNext sub s (r, .reactivateDomains)).isSome = true := by
  have ok := inv.lookup r
  rw [hp] at ok
  obtain ⟨locks, _, _⟩ := ok
  have details : ∀ id ∈ reactivatedIds (sub r) known, s.details.free r id = true :=
    fun id _ => free_of_quiet (fun r => (inv.lookup r).details_quiet (early r)) r id
  have domains : ∀ name ∈ reactivatedNames (sub r) known, s.domains.free r name = true := by
    intro name hn
    obtain ⟨_, d, hd, inactive⟩ := mem_reactivatedNames.mp hn
    obtain ⟨d', hd', ⟨_, rfl⟩ | ⟨stored, hs, _⟩⟩ := locks.rows name (mem_allDomainStrs_of_reactivated hn)
    · rw [hd] at hd'
      cases Option.some.inj hd'
      cases inactive
    · unfold Store.free
      cases hl : s.domains.locks name with
      | none => rfl
      | some lock =>
        have absent := ((inv.lookup lock.1).domains_held (early lock.1) hl).2
        rw [hs] at absent
        cases absent
  simp only [submitNext, ingestNext, hp]
  rw [if_pos ⟨domains, details⟩]
  rfl

/-- Either the missing names are still free, or the insert fails. -/
theorem submit_createDomains (inv : SubmitInv sub db s) (early : ∀ r, (s.phase r).holds = 0)
    {found : List Domain} (hp : s.phase r = .domainsRead found) :
    ∃ action, (submitNext sub s (r, action)).isSome = true := by
  have quiet : ∀ r, s.domains.Quiet r := by
    intro r name row hl
    have held := (inv.lookup r).domains_held (by rw [early r]; exact Nat.zero_le 1) hl
    rw [early r] at held
    exact absurd held.1 Nat.zero_ne_one
  by_cases free : ∀ name ∈ missingNames (sub r) found, s.domains.committed name = none
  · refine ⟨.createDomains, ?_⟩
    let new := (missingNames (sub r) found).map (sub r).domainRow
    have names : new.map Domain.normalizedDomain = missingNames (sub r) found := by
      simp [new, Function.comp_def, Submission.domainRow]
    have distinct : (new.map Domain.normalizedDomain).Nodup := by
      rw [names]
      exact (List.nodup_dedup _).filter _
    have unused : ∀ row ∈ new, s.domains.view r row.normalizedDomain = none := by
      intro row hr
      obtain ⟨name, hn, rfl⟩ := List.mem_map.mp hr
      rw [Store.view_of_unheld (quiet r _)]
      exact free name hn
    obtain ⟨domains, inserted⟩ :=
      Store.insertAll_of_free (fun row _ => free_of_quiet quiet r row.normalizedDomain) distinct unused
    have created : s.domains.insertAll r Domain.normalizedDomain
        (((sub r).allDomainStrs.filter fun name => (findDomain found name).isNone).map
          (sub r).domainRow) = some domains := inserted
    simp only [submitNext, ingestNext, hp, created, Option.map_some, Option.isSome_some]
  · refine ⟨.fail, ?_⟩
    have duplicate : duplicateName sub s r = true := by
      obtain ⟨name, hn, stored⟩ := by simpa only [not_forall] using free
      simp only [duplicateName, hp]
      exact List.any_eq_true.mpr ⟨name, hn, Option.isSome_iff_ne_none.mpr stored⟩
    simp only [submitNext, duplicate, if_true, ingestNext, hp, Option.isSome_some]

theorem submit_readDomains (hp : s.phase r = .opened) :
    (submitNext sub s (r, .readDomains)).isSome = true := by
  simp only [submitNext, ingestNext, hp, Option.isSome_some]

theorem submit_insertRecord (ind : Independent sub db) (inv : SubmitInv sub db s)
    (hp : s.phase r = .jobInserted) : (submitNext sub s (r, .insertRecord)).isSome = true := by
  have ok := inv.lookup r
  rw [hp] at ok
  obtain ⟨scope, hs⟩ := Option.isSome_iff_exists.mp ok.2
  have free : s.records.free r scope = true := by
    unfold Store.free
    cases hl : s.records.locks scope with
    | none => rfl
    | some lock =>
      have same := ind.scopeInjective _ r scope ((inv.ingest.requests lock.1).record_lock hl) hs
      simpa using same
  simp only [submitNext, ingestNext, hp, hs, free, if_true]
  split <;> rfl

theorem submit_insertJob (ind : Independent sub db) (inv : SubmitInv sub db s)
    (upTo : SerialUpTo sub db s order after) (hp : s.phase r = .ready) :
    (submitNext sub s (r, .insertJob)).isSome = true := by
  have request := inv.ingest.requests r
  rw [hp] at request
  have free : s.jobs.free r (sub r).jobUuid = true := by
    unfold Store.free
    cases hl : s.jobs.locks (sub r).jobUuid with
    | none => rfl
    | some lock =>
      have same := ind.jobInjective ((inv.ingest.requests lock.1).job_lock hl)
      simpa using same.symm
  have unused : s.jobs.view r (sub r).jobUuid = none := by
    rw [Store.view_of_unheld (request.1 _)]
    by_contra stored
    obtain ⟨job, hj⟩ := Option.ne_none_iff_exists'.mp stored
    rcases inv.ingest.jobs _ job hj with old | ⟨r', hw, rfl⟩
    · have fresh : (ingestInit db : IngestState ι).jobs.committed (sub r).jobUuid = none := ind.jobFresh r
      rw [fresh] at old
      cases old
    · rw [upTo.tables.jobs] at hj
      have same := ind.jobInjective (Table.get_eq_some_iff.mp hj).2
      rw [same, hp] at hw
      cases hw
  have inserted : s.jobs.insert r (sub r).jobUuid (sub r).jobRow =
      some (s.jobs.hold r (sub r).jobUuid (some (sub r).jobRow)) :=
    Store.insert_eq_some_iff.mpr ⟨⟨free, unused⟩, rfl⟩
  simp only [submitNext, ingestNext, hp, inserted, Option.map_some, Option.isSome_some]

/-- While a request is unfinished, some request can run its next statement. -/
theorem submit_enabled (ind : Independent sub db) (inv : SubmitInv sub db s)
    (upTo : SerialUpTo sub db s order after) (unfinished : (s.phase r).response = none) :
    ∃ step, (submitNext sub s step).isSome = true := by
  by_contra stuck
  have waits : ∀ r action, (submitNext sub s (r, action)).isSome ≠ true :=
    fun r action enabled => stuck ⟨(r, action), enabled⟩
  have two : ∀ r, (s.phase r).holds ≤ 2 := by
    intro r
    cases hp : s.phase r with
    | tasksInserted => exact absurd (submit_commit hp) (waits r _)
    | _ => simp [IngestPhase.holds]
  have one : ∀ r, (s.phase r).holds ≤ 1 := by
    intro r
    cases hp : s.phase r with
    | tasksInserted => exact absurd (submit_commit hp) (waits r _)
    | domainsReactivated known => exact absurd (submit_insertTasks ind inv upTo two hp) (waits r _)
    | _ => simp [IngestPhase.holds]
  have none_holds : ∀ r, (s.phase r).holds = 0 := by
    intro r
    have later := one r
    cases hp : s.phase r with
    | tasksInserted => exact absurd (submit_commit hp) (waits r _)
    | domainsReactivated known => exact absurd (submit_insertTasks ind inv upTo two hp) (waits r _)
    | domainsCreated known => exact absurd (submit_reactivateDomains inv one hp) (waits r _)
    | _ => rfl
  have ok := inv.lookup r
  cases hp : s.phase r with
  | ready => exact waits r _ (submit_insertJob ind inv upTo hp)
  | jobInserted => exact waits r _ (submit_insertRecord ind inv hp)
  | refused =>
    rw [hp] at ok
    exact ok
  | replaying jobId =>
    rw [hp] at ok
    exact ok
  | opened => exact waits r _ (submit_readDomains hp)
  | domainsRead found =>
    obtain ⟨action, enabled⟩ := submit_createDomains inv none_holds hp
    exact waits r action enabled
  | domainsCreated known => exact waits r _ (submit_reactivateDomains inv one hp)
  | domainsReactivated known => exact waits r _ (submit_insertTasks ind inv upTo two hp)
  | tasksInserted => exact waits r _ (submit_commit hp)
  | finished wrote response =>
    rw [hp] at unfinished
    cases unfinished

end Progress

section Submissions

variable {ι : Type*} {sub : ι → Submission} {db after : Db} {order : List ι}
variable {t : IngestState ι} {trace : List (IngestState ι × ι × IngestAction)}

theorem response_accepted {r : ι} (ok : LookupOk (sub r) t r (t.phase r)) {response : JobResponse}
    (h : (t.phase r).response = some response) :
    (t.phase r).wrote = true ∧ response = .accepted (sub r).jobUuid := by
  cases hp : t.phase r with
  | finished wrote answer =>
    rw [hp] at ok h
    cases wrote with
    | true =>
      cases Option.some.inj h
      exact ⟨rfl, ok.2⟩
    | false => exact ok.elim
  | _ =>
    rw [hp] at h
    cases h

theorem response_of_wrote {r : ι} (h : (t.phase r).wrote = true) :
    (t.phase r).response.isSome = true := by
  cases hp : t.phase r with
  | finished wrote answer => rfl
  | _ =>
    rw [hp] at h
    cases h

theorem submissions_serial [DecidableEq ι] (sub : ι → Submission) {db : Db} (ind : Independent sub db)
    (run : SubmitRun sub (ingestInit db) trace t) (guard : ∀ p ∈ trace, LookupHolds sub p.1 p.2) :
    (∀ r response, (t.phase r).response = some response → response = .accepted (sub r).jobUuid) ∧
    (∃ order after, Serial sub db order after ∧ order.Nodup ∧
      (∀ r, r ∈ order ↔ (t.phase r).response.isSome = true) ∧ TablesAre t after) ∧
    (∀ r, (t.phase r).response = none → ∃ step, (submitNext sub t step).isSome = true) ∧
    ∀ r, (trace.countP fun p => decide (p.2.1 = r)) ≤ 7 := by
  have inv := submit_run ind run guard
  obtain ⟨order, after, upTo⟩ := serial_run ind run guard
  refine ⟨fun r response h => (response_accepted (inv.lookup r) h).2,
    ⟨order, after, upTo.serial, upTo.nodup, fun r => ?_, upTo.tables⟩,
    fun r unfinished => submit_enabled ind inv upTo unfinished, fun r => ?_⟩
  · rw [upTo.finished]
    constructor
    · exact response_of_wrote
    · intro answered
      obtain ⟨response, h⟩ := Option.isSome_iff_exists.mp answered
      exact (response_accepted (inv.lookup r) h).1
  · have bounded := remaining_run ind run guard r
    omega

theorem Serial.foldr (h : Serial sub db order after) :
    after = order.foldr (fun r db => (createJob (sub r) db).1) db := by
  induction h with
  | start => rfl
  | next _ accepted ih => rw [List.foldr_cons, ← ih, accepted]

end Submissions

/-- Requests without a key for the given names, submitted one instant after the
other. -/
def namedSubmissions (names : Fin 3 → List String) (r : Fin 3) : Submission :=
  { plainSubmission (10 + r) ((names r).map fun name => ⟨name, true, none⟩) [] with
    now := r
    domainUuid := fun name => 3 * name.length + r
    taskUuid := fun n => 3 * n + r }

/-- The names `a.org` and `bb.org` are deactivated. -/
def retiredDb : Db :=
  { Db.empty with
    domains := ⟨[⟨100, "a.org", false, some (-1), -9, -1⟩, ⟨101, "bb.org", false, some (-1), -9, -1⟩],
      by decide⟩ }

theorem mod_three_cases {n n' : Nat} {r r' : Fin 3} (h : 3 * n + r.val = 3 * n' + r'.val) :
    r = r' ∧ n = n' := by
  have hr := r.isLt
  have hr' := r'.isLt
  exact ⟨Fin.ext (by omega), by omega⟩

theorem namedSubmissions_independent {names : Fin 3 → List String}
    (short : ∀ r, ∀ name ∈ (namedSubmissions names r).allDomainStrs, name.length < 30)
    (apart : ∀ r r', ∀ name ∈ (namedSubmissions names r).allDomainStrs,
      ∀ name' ∈ (namedSubmissions names r').allDomainStrs, name.length = name'.length → name = name') :
    Independent (namedSubmissions names) retiredDb where
  jobFresh := fun _ => rfl
  jobInjective := fun _ _ same => Fin.ext (Nat.add_left_cancel same)
  scopeFresh := by
    intro r scope h
    cases h
  scopeInjective := by
    intro r r' scope h
    cases h
  domainFresh := by
    intro r name hn d hd
    have bound := short r name hn
    have stored : (100 : Nat) ≤ d.id := by
      revert d
      decide
    have hr := r.isLt
    intro same
    have drawn : @Eq Nat d.id (3 * name.length + r.val) := same
    omega
  domainInjective := by
    intro r r' name hn name' hn' same
    obtain ⟨requests, lengths⟩ := mod_three_cases same
    exact ⟨requests, apart r r' name hn name' hn' lengths⟩
  taskFresh := fun _ _ => rfl
  taskInjective := by
    rintro ⟨r, n⟩ ⟨r', n'⟩ same
    obtain ⟨requests, numbers⟩ := mod_three_cases same
    exact Prod.ext requests numbers

def nestedNames : Fin 3 → List String
  | 0 => ["a.org"]
  | _ => ["a.org", "bb.org"]

theorem nestedNames_independent : Independent (namedSubmissions nestedNames) retiredDb :=
  namedSubmissions_independent (by decide) (by decide)

def openSteps {ι : Type*} (r : ι) : List (ι × IngestAction) := [(r, .insertJob), (r, .readDomains)]

def closeSteps {ι : Type*} (r : ι) : List (ι × IngestAction) :=
  [(r, .createDomains), (r, .reactivateDomains), (r, .insertTasks), (r, .commit true)]

/-- Every request looks up its names after the one before has committed. -/
def nestedSteps {ι : Type*} (first second third : ι) : List (ι × IngestAction) :=
  [(second, .insertJob), (third, .insertJob)] ++ openSteps first ++ closeSteps first ++
    [(second, .readDomains)] ++ closeSteps second ++ [(third, .readDomains)] ++ closeSteps third

theorem submissions_serial_nested :
    ∃ t, exec (submitNext (namedSubmissions nestedNames)) (ingestInit retiredDb)
        (nestedSteps 0 1 2) = some t ∧
      (∀ r, (t.phase r).response = some (.accepted (10 + r.val))) ∧
      ∃ order after, Serial (namedSubmissions nestedNames) retiredDb order after ∧ order.Nodup ∧
        (∀ r, r ∈ order) ∧ TablesAre t after := by
  have enabled : (exec (submitNext (namedSubmissions nestedNames)) (ingestInit retiredDb)
      (nestedSteps 0 1 2)).any (fun t =>
        decide (∀ r, (t.phase r).response = some (.accepted (10 + r.val)))) = true := by decide +kernel
  have guard : ∀ p ∈ steps (submitNext (namedSubmissions nestedNames)) (ingestInit retiredDb)
      (nestedSteps 0 1 2), LookupHolds (namedSubmissions nestedNames) p.1 p.2 := by decide +kernel
  obtain ⟨t, ht, answers⟩ := (Option.any_eq_true _ _).mp enabled
  have answers := of_decide_eq_true answers
  obtain ⟨_, ⟨order, after, serial, nodup, finished, tables⟩, _, _⟩ :=
    submissions_serial (namedSubmissions nestedNames) nestedNames_independent (exec_run ht) guard
  refine ⟨t, ht, answers, order, after, serial, nodup, fun r => ?_, tables⟩
  rw [finished, answers r]
  rfl

/-- Two requests look up a new name before either of them has created it. -/
def collidingSteps {ι : Type*} (refused created : ι) : List (ι × IngestAction) :=
  openSteps refused ++ openSteps created ++ closeSteps created ++ [(refused, .fail)]

/-- The second request looks up the names after the first has reactivated one of
them, the third before, and the third commits first. -/
def staleSteps {ι : Type*} (first second third : ι) : List (ι × IngestAction) :=
  openSteps third ++ openSteps first ++ closeSteps first ++ openSteps second ++ closeSteps third ++
    closeSteps second

theorem submissions_fail_or_unserial :
    (Independent (namedSubmissions fun _ => ["ccc.org"]) retiredDb ∧
      ∃ trace t, SubmitRun (namedSubmissions fun _ => ["ccc.org"]) (ingestInit retiredDb) trace t ∧
        (t.phase 1).response = some .failed) ∧
    Independent (namedSubmissions nestedNames) retiredDb ∧
      ∃ trace t, SubmitRun (namedSubmissions nestedNames) (ingestInit retiredDb) trace t ∧
        (∀ r, (t.phase r).response = some (.accepted (10 + r.val))) ∧
        ∀ order after, Serial (namedSubmissions nestedNames) retiredDb order after → order.Nodup →
          (∀ r, r ∈ order) → ¬TablesAre t after := by
  constructor
  · refine ⟨namedSubmissions_independent (by decide) (by decide), ?_⟩
    have refused : (exec (submitNext (namedSubmissions fun _ => ["ccc.org"])) (ingestInit retiredDb)
        (collidingSteps 1 2)).any (fun t => decide ((t.phase 1).response = some .failed)) = true := by
      decide +kernel
    obtain ⟨t, ht, failed⟩ := (Option.any_eq_true _ _).mp refused
    exact ⟨_, t, exec_run ht, of_decide_eq_true failed⟩
  · refine ⟨nestedNames_independent, ?_⟩
    have reached : (exec (submitNext (namedSubmissions nestedNames)) (ingestInit retiredDb)
        (staleSteps 0 1 2)).any (fun t => decide (
          (∀ r, (t.phase r).response = some (.accepted (10 + r.val))) ∧
          (t.domains.committed "a.org").map Domain.updatedAt = some 2 ∧
          (t.domains.committed "bb.org").map Domain.updatedAt = some 1)) = true := by decide +kernel
    obtain ⟨t, ht, result⟩ := (Option.any_eq_true _ _).mp reached
    obtain ⟨answers, first, second⟩ := of_decide_eq_true result
    refine ⟨_, t, exec_run ht, answers, fun order after serial nodup all tables => ?_⟩
    have orders : order ∈ [(0 : Fin 3), 1, 2].permutations' :=
      List.mem_permutations'.mpr ((List.perm_ext_iff_of_nodup nodup (by decide)).mpr fun r => by
        simp only [all r, true_iff]
        revert r
        decide)
    have never : ∀ order ∈ [(0 : Fin 3), 1, 2].permutations',
        let db := order.foldr (fun r db => (createJob (namedSubmissions nestedNames r) db).1) retiredDb
        ¬((findDomain db.domains.rows "a.org").map Domain.updatedAt = some 2 ∧
          (findDomain db.domains.rows "bb.org").map Domain.updatedAt = some 1) := by decide +kernel
    refine never order orders ?_
    rw [← serial.foldr, ← tables.domains]
    exact ⟨first, second⟩

end DomainProcessing
