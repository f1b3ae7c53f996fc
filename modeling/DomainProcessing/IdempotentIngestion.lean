import DomainProcessing.IngestionEffects
import DomainProcessing.Runs

namespace DomainProcessing

open RowLocks Runs

section Runs

variable {ι : Type*} [DecidableEq ι] {sub : ι → Submission} {start s t : IngestState ι}
variable {r : ι} {action : IngestAction}

structure IngestInv (sub : ι → Submission) (start s : IngestState ι) : Prop where
  jobsOnly : s.jobs.InsertOnly
  recordsOnly : s.records.InsertOnly
  tasksOnly : s.tasks.InsertOnly
  requests : ∀ r, RequestOk (sub r) s r (s.phase r)
  unique : ∀ r r' scope, (sub r).scope = some scope → (sub r').scope = some scope →
    (s.phase r).wrote = true → (s.phase r').wrote = true → r = r'
  jobs : ∀ k job, s.jobs.committed k = some job → start.jobs.committed k = some job ∨
    ∃ r, (s.phase r).wrote = true ∧ job = (sub r).jobRow
  records : ∀ scope record, s.records.committed scope = some record →
    start.records.committed scope = some record ∨
      ∃ r, (s.phase r).wrote = true ∧ (sub r).scope = some scope ∧ record = (sub r).recordRow scope
  growth : IngestGrowth start s

theorem ingestNext_finished {wrote : Bool} {response : JobResponse}
    (h : s.phase r = .finished wrote response) : ingestNext sub s (r, action) = none := by
  simp only [ingestNext, h]

theorem ingestInv_init {db : Db} : IngestInv sub (ingestInit db) (ingestInit db) := by
  refine ⟨Store.insertOnly_idle, Store.insertOnly_idle, Store.insertOnly_idle, fun r => ?_, ?_,
    fun _ _ h => Or.inl h, fun _ _ h => Or.inl h, ⟨fun _ _ h => h, fun _ _ h => h, fun _ _ h => h⟩⟩
  · exact ⟨Store.quiet_idle, Store.quiet_idle, Store.quiet_idle, Store.quiet_idle, Store.quiet_idle⟩
  · intro r r' scope _ _ h
    cases h

theorem wrote_mono {r' : ι} (ok : RequestOk (sub r) s r (s.phase r))
    (h : ingestNext sub s (r, action) = some t) (hw : (s.phase r').wrote = true) :
    (t.phase r').wrote = true := by
  by_cases hr : r' = r
  · subst hr
    cases hp : s.phase r' with
    | finished wrote response =>
      rw [ingestNext_finished hp] at h
      cases h
    | _ =>
      rw [hp] at hw
      cases hw
  · rw [(ingestNext_effect ok h).frame.phase r' hr]
    exact hw

theorem ingestInv_step (inv : IngestInv sub start s)
    (h : ingestNext sub s (r, action) = some t) : IngestInv sub start t := by
  have effect := ingestNext_effect (inv.requests r) h
  have frame := effect.frame
  have step : IngestGrowth s t :=
    ⟨fun _ _ hk => frame.jobs.grows inv.jobsOnly hk,
      fun _ _ hk => frame.records.grows inv.recordsOnly hk,
      fun _ _ hk => frame.tasks.grows inv.tasksOnly hk⟩
  have mono : ∀ r', (s.phase r').wrote = true → (t.phase r').wrote = true :=
    fun _ hw => wrote_mono (inv.requests r) h hw
  refine ⟨frame.jobs.only inv.jobsOnly, frame.records.only inv.recordsOnly,
    frame.tasks.only inv.tasksOnly, ?_, ?_, ?_, ?_, ?_⟩
  · intro r'
    by_cases hr : r' = r
    · subst hr
      exact effect.own
    · rw [frame.phase r' hr]
      exact ok_other (inv.requests r') frame hr step
  · -- a request that writes now has held the record, so nobody else has committed it
    have alone : ∀ r' scope, r' ≠ r → (sub r).scope = some scope → (sub r').scope = some scope →
        (t.phase r).wrote = true → (t.phase r').wrote = true → False := by
      intro r' scope hne hs hs' hw hw'
      rw [frame.phase r' hne] at hw'
      have stored := (written_of_wrote (inv.requests r') hw').record scope hs'
      rcases effect.commits with ⟨_, idle⟩ | ⟨hp, _⟩
      · rw [idle] at hw
        cases hw
      · have ok := inv.requests r
        rw [hp] at ok
        have free := inv.recordsOnly scope r _ ((ok.2.1 scope _).mpr ⟨hs, rfl⟩)
        rw [free] at stored
        cases stored
    intro r₁ r₂ scope h₁ h₂ w₁ w₂
    by_cases e₁ : r₁ = r
    · subst e₁
      by_contra hne
      exact alone r₂ scope (fun e => hne e.symm) h₁ h₂ w₁ w₂
    · by_cases e₂ : r₂ = r
      · subst e₂
        exact (alone r₁ scope e₁ h₂ h₁ w₂ w₁).elim
      · rw [frame.phase r₁ e₁] at w₁
        rw [frame.phase r₂ e₂] at w₂
        exact inv.unique r₁ r₂ scope h₁ h₂ w₁ w₂
  · intro k job hk
    rcases effect.job_appears (inv.requests r) hk with before | ⟨hw, rfl⟩
    · rcases inv.jobs k job before with old | ⟨r', hw, rfl⟩
      · exact Or.inl old
      · exact Or.inr ⟨r', mono r' hw, rfl⟩
    · exact Or.inr ⟨r, hw, rfl⟩
  · intro scope record hk
    rcases effect.record_appears (inv.requests r) hk with before | ⟨hw, hs, rfl⟩
    · rcases inv.records scope record before with old | ⟨r', hw, hs, rfl⟩
      · exact Or.inl old
      · exact Or.inr ⟨r', mono r' hw, hs, rfl⟩
    · exact Or.inr ⟨r, hw, hs, rfl⟩
  · exact ⟨fun _ _ hk => step.jobs _ _ (inv.growth.jobs _ _ hk),
      fun _ _ hk => step.records _ _ (inv.growth.records _ _ hk),
      fun _ _ hk => step.tasks _ _ (inv.growth.tasks _ _ hk)⟩

theorem unaborted_step (ok : RequestOk (sub r) s r (s.phase r))
    (clean : Unaborted (sub r) s (s.phase r)) (goesOn : action.aborts = false)
    (h : ingestNext sub s (r, action) = some t) : Unaborted (sub r) t (t.phase r) := by
  unfold ingestNext at h
  dsimp only at h
  split at h
  next hp =>
    obtain ⟨jobs, _, rfl⟩ := Option.map_eq_some_iff.mp h
    apply unaborted_move
    cases (sub r).scope <;> trivial
  next => cases goesOn
  next => cases goesOn
  next scope hp hs =>
    rw [hp] at ok
    split at h
    next free =>
      split at h
      next =>
        cases Option.some.inj h
        exact unaborted_move trivial
      next refused =>
        cases Option.some.inj h
        -- the insert neither waits nor succeeds, so the winner has committed
        have seen : s.records.view r scope = s.records.committed scope :=
          Store.view_of_unheld (ok.2.1 scope)
        cases hc : s.records.committed scope with
        | none => simp [Store.insert, free, seen, hc] at refused
        | some record => exact unaborted_move ⟨scope, record, hs, hc, trivial⟩
    next => cases h
  next scope hp hs =>
    rw [hp] at ok clean
    obtain ⟨scope', record, hs', stored, _⟩ := clean
    cases Option.some.inj (hs.symm.trans hs')
    have seen : s.records.view r scope = some record :=
      (Store.view_of_unheld (ok.2.1 scope)).trans stored
    rw [seen] at h
    dsimp only at h
    split at h
    next =>
      cases Option.some.inj h
      exact unaborted_move trivial
    next =>
      cases Option.some.inj h
      exact unaborted_move JobResponse.noConfusion
  next =>
    cases Option.some.inj h
    exact unaborted_move trivial
  next =>
    obtain ⟨_, _, rfl⟩ := Option.map_eq_some_iff.mp h
    exact unaborted_move trivial
  next =>
    split at h
    next =>
      cases Option.some.inj h
      exact unaborted_move trivial
    next => cases h
  next =>
    obtain ⟨_, _, h⟩ := Option.bind_eq_some_iff.mp h
    obtain ⟨_, _, h⟩ := Option.bind_eq_some_iff.mp h
    obtain ⟨_, _, rfl⟩ := Option.map_eq_some_iff.mp h
    exact unaborted_move trivial
  next answered hp =>
    cases Option.some.inj h
    cases answered with
    | false => cases goesOn
    | true => exact unaborted_move JobResponse.noConfusion
  next jobId answered hp =>
    cases Option.some.inj h
    cases answered with
    | false => cases goesOn
    | true => exact unaborted_move JobResponse.noConfusion
  next => cases h
  next => cases goesOn
  next => cases h

variable {trace : List (IngestState ι × ι × IngestAction)}

theorem ingest_run (run : Run (ingestNext sub) start trace t) (init : IngestInv sub start start) :
    IngestInv sub start t :=
  run.invariant init fun inv h => ingestInv_step inv h

theorem unaborted_run (run : Run (ingestNext sub) start trace t) (init : IngestInv sub start start)
    (ready : start.phase r = .ready)
    (goesOn : ∀ p ∈ trace, p.2.1 = r → p.2.2.aborts = false) : Unaborted (sub r) t (t.phase r) := by
  induction run with
  | start =>
    rw [ready]
    trivial
  | @step trace s step t run h ih =>
    obtain ⟨last, before⟩ := List.forall_mem_cons.mp goesOn
    have clean := ih before
    have inv := ingest_run run init
    obtain ⟨r', action⟩ := step
    by_cases hr : r' = r
    · subst hr
      exact unaborted_step (inv.requests r') clean (last rfl) h
    · have effect := ingestNext_effect (inv.requests r') h
      rw [effect.frame.phase r (fun e => hr e.symm)]
      exact clean.mono ⟨fun _ _ hk => effect.frame.jobs.grows inv.jobsOnly hk,
        fun _ _ hk => effect.frame.records.grows inv.recordsOnly hk,
        fun _ _ hk => effect.frame.tasks.grows inv.tasksOnly hk⟩

/-- None of the steps of the request has changed a committed row. -/
def ChangesNothing (sub : ι → Submission) (r : ι) (trace : List (IngestState ι × ι × IngestAction)) :
    Prop :=
  ∀ p ∈ trace, p.2.1 = r → ∀ u, ingestNext sub p.1 p.2 = some u → u.snapshot = p.1.snapshot

theorem changesNothing_of_not_wrote (run : Run (ingestNext sub) start trace t)
    (init : IngestInv sub start start) (hw : (t.phase r).wrote = false) :
    ChangesNothing sub r trace := by
  induction run with
  | start =>
    intro p hp
    cases hp
  | @step trace s step t run h ih =>
    have inv := ingest_run run init
    obtain ⟨r', action⟩ := step
    have idle : (s.phase r).wrote = false := by
      by_contra hs
      have later := wrote_mono (inv.requests r') h (by simpa using hs)
      rw [hw] at later
      cases later
    refine List.forall_mem_cons.mpr ⟨fun hr u hu => ?_, ih idle⟩
    have hr : r' = r := hr
    subst hr
    cases Option.some.inj (h.symm.trans hu)
    rcases (ingestNext_effect (inv.requests r') h).commits with ⟨same, _⟩ | ⟨_, now⟩
    · exact same
    · rw [hw] at now
      cases now

/-- The answers 200 and 202 carry the job of the stored record. -/
theorem stored_of_response (inv : IngestInv sub start s) {scope : String × String}
    (hs : (sub r).scope = some scope) {response : JobResponse}
    (hr : (s.phase r).response = some response) {jobId : JobId}
    (ok : response = .accepted jobId ∨ response = .replayed jobId) :
    ∃ record, s.records.committed scope = some record ∧
      record.requestHash = (sub r).requestHash ∧ record.jobId = jobId := by
  have request := inv.requests r
  cases hp : s.phase r with
  | finished wrote answer =>
    rw [hp] at hr request
    have same : answer = response := Option.some.inj hr
    subst same
    cases wrote with
    | true =>
      obtain ⟨_, written, rfl | rfl⟩ := request
      · refine ⟨_, written.record scope hs, rfl, ?_⟩
        rcases ok with same | same
        · exact JobResponse.accepted.inj same
        · cases same
      · rcases ok with same | same <;> cases same
    | false =>
      rcases ok with rfl | rfl
      · exact request.2.elim
      · obtain ⟨scope', record, hs', stored, same⟩ := request.2
        cases Option.some.inj (hs.symm.trans hs')
        exact ⟨record, stored, same⟩
  | _ =>
    rw [hp] at hr
    cases hr

/-- With another payload a request is refused. -/
theorem conflict_of_other_payload (inv : IngestInv sub start s) {scope : String × String}
    (hs : (sub r).scope = some scope) {response : JobResponse}
    (hr : (s.phase r).response = some response) {record : IdempotencyRecord}
    (stored : s.records.committed scope = some record)
    (differs : record.requestHash ≠ (sub r).requestHash) :
    (response = .conflict ∨ response = .failed) ∧ (s.phase r).wrote = false := by
  have refused : ∀ jobId, response ≠ .accepted jobId ∧ response ≠ .replayed jobId := by
    intro jobId
    constructor
    · intro same
      obtain ⟨record', stored', hash, _⟩ := stored_of_response inv hs hr (Or.inl same)
      cases Option.some.inj (stored.symm.trans stored')
      exact differs hash
    · intro same
      obtain ⟨record', stored', hash, _⟩ := stored_of_response inv hs hr (Or.inr same)
      cases Option.some.inj (stored.symm.trans stored')
      exact differs hash
  constructor
  · cases response with
    | accepted jobId => exact ((refused jobId).1 rfl).elim
    | replayed jobId => exact ((refused jobId).2 rfl).elim
    | conflict => exact Or.inl rfl
    | failed => exact Or.inr rfl
  · by_contra hw
    have written := written_of_wrote (inv.requests r) (by simpa using hw)
    have own := written.record scope hs
    cases Option.some.inj (stored.symm.trans own)
    exact differs rfl

theorem idempotent_ingestion (sub : ι → Submission) {db : Db}
    (run : Run (ingestNext sub) (ingestInit db) trace t) (scope : String × String) :
    (∀ r r', (sub r).scope = some scope → (sub r').scope = some scope →
      (t.phase r).wrote = true → (t.phase r').wrote = true → r = r') ∧
    (∀ r jobId response, (sub r).scope = some scope → (t.phase r).response = some response →
      response = .accepted jobId ∨ response = .replayed jobId →
      ∃ record, t.records.committed scope = some record ∧
        record.requestHash = (sub r).requestHash ∧ record.jobId = jobId) ∧
    (∀ r response record, (sub r).scope = some scope → (t.phase r).response = some response →
      t.records.committed scope = some record → record.requestHash ≠ (sub r).requestHash →
      (response ≠ .failed → response = .conflict) ∧ ChangesNothing sub r trace) ∧
    (∀ r, (t.phase r).response = some .failed → ∃ p ∈ trace, p.2.1 = r ∧ p.2.2.aborts = true) ∧
    (∀ record, t.records.committed scope = some record →
      db.idempotencyRecords.get scope = some record ∨
      ∃ r, (sub r).scope = some scope ∧ record = (sub r).recordRow scope ∧
        t.jobs.committed record.jobId = some (sub r).jobRow ∧
        (sub r).Ingested t.tasks.committed) ∧
    (∀ k job, t.jobs.committed k = some job → db.jobs.get k = some job ∨
      ∃ r, job = (sub r).jobRow ∧ (sub r).Ingested t.tasks.committed) ∧
    IngestGrowth (ingestInit db) t := by
  have init : IngestInv sub (ingestInit db) (ingestInit db) := ingestInv_init
  have inv := ingest_run run init
  refine ⟨fun r r' hs hs' hw hw' => inv.unique r r' scope hs hs' hw hw',
    fun r jobId response hs hr ok => stored_of_response inv hs hr ok, ?_, ?_, ?_, ?_, inv.growth⟩
  · intro r response record hs hr stored differs
    obtain ⟨answer, hw⟩ := conflict_of_other_payload inv hs hr stored differs
    exact ⟨fun hne => answer.resolve_right hne, changesNothing_of_not_wrote run init hw⟩
  · intro r hr
    by_contra hno
    have goesOn : ∀ p ∈ trace, p.2.1 = r → p.2.2.aborts = false := by
      intro p hp he
      by_contra ha
      exact hno ⟨p, hp, he, by simpa using ha⟩
    have clean := unaborted_run run init rfl goesOn
    cases hp : t.phase r with
    | finished wrote answer =>
      rw [hp] at hr clean
      exact clean (Option.some.inj hr)
    | _ =>
      rw [hp] at hr
      cases hr
  · intro record stored
    rcases inv.records scope record stored with old | ⟨r, hw, hs, rfl⟩
    · exact Or.inl old
    · have written := written_of_wrote (inv.requests r) hw
      exact Or.inr ⟨r, hs, rfl, written.job, written.tasks⟩
  · intro k job hk
    rcases inv.jobs k job hk with old | ⟨r, hw, rfl⟩
    · exact Or.inl old
    · exact Or.inr ⟨r, rfl, (written_of_wrote (inv.requests r) hw).tasks⟩

end Runs

/-- Three requests with one key; the third carries another payload. -/
def sameKeySubmissions (r : Fin 3) : Submission :=
  { plainSubmission (10 + r) [⟨"a.example", true, none⟩] [] with
    idempotencyKey := some "key"
    requestHash := if r = 2 then "other payload" else "payload" }

def sameKeySteps : List (Fin 3 × IngestAction) :=
  [(0, .insertJob), (1, .insertJob), (0, .insertRecord), (2, .insertJob), (0, .readDomains),
    (0, .createDomains), (0, .reactivateDomains), (0, .insertTasks), (0, .commit true),
    (1, .insertRecord), (2, .insertRecord), (2, .readWinner), (1, .readWinner), (1, .commit true)]

theorem idempotent_ingestion_three :
    ∃ t, exec (ingestNext sameKeySubmissions) (ingestInit .empty) sameKeySteps = some t ∧
      (t.phase 0).response = some (.accepted 10) ∧ (t.phase 1).response = some (.replayed 10) ∧
      (t.phase 2).response = some .conflict ∧
      ∃ record, t.records.committed ("req-1", "key") = some record ∧
        record.requestHash = (sameKeySubmissions 1).requestHash ∧ record.jobId = 10 := by
  have enabled : (exec (ingestNext sameKeySubmissions) (ingestInit .empty) sameKeySteps).map
      (fun t => ((t.phase 0).response, (t.phase 1).response, (t.phase 2).response)) =
        some (some (.accepted 10), some (.replayed 10), some .conflict) := by decide
  obtain ⟨t, ht, answers⟩ := Option.map_eq_some_iff.mp enabled
  obtain ⟨h₀, h₁, h₂⟩ : (t.phase 0).response = some (.accepted 10) ∧
      (t.phase 1).response = some (.replayed 10) ∧ (t.phase 2).response = some .conflict := by
    simpa using answers
  have result := idempotent_ingestion sameKeySubmissions (exec_run ht) ("req-1", "key")
  exact ⟨t, ht, h₀, h₁, h₂, result.2.1 1 10 _ rfl h₁ (Or.inr rfl)⟩

end DomainProcessing
