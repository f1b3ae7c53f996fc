import DomainProcessing.JobClosing

namespace DomainProcessing

open Tables RowLocks Runs

variable {c : JobClosing} {tasks : Store TaskId TaskId Task} {jobs : Store TaskId JobId Job}
  {phase : Phases} {k i : TaskId} {p : ClosingPhase} {t : Task}

theorem Phases.move_self : phase.move k p k = p := Function.update_self ..

theorem Phases.move_of_ne (h : i ≠ k) : phase.move k p i = phase i := Function.update_of_ne h ..

theorem ClosingPhase.active_of_critical (h : p.critical = true) : p.active = true := by
  cases p <;> simp_all [ClosingPhase.active, ClosingPhase.critical]

theorem JobClosing.row_terminal (k : TaskId) (t : Task) : (c.row k t).status.isOpen = false := by
  unfold JobClosing.row
  cases c.write k <;> rfl

theorem JobClosing.session_known (h : c.session k = true) : k ∈ c.db.tasks.rows.map Task.id := by
  by_contra hk
  have hn : c.db.tasks.get k = none := Table.get_eq_none_iff.mpr hk
  simp [JobClosing.session, hn] at h

/-- The version of the job row a transaction holds: evaluated or as it was read. -/
def JobClosing.version (c : JobClosing) (tasks : Store TaskId TaskId Task)
    (jobs : Store TaskId JobId Job) (k : TaskId) : ClosingPhase → Option Job
  | .evaluated =>
    (jobs.committed c.jobId).map (evaluateJobStatus (c.openSeen tasks k) (c.now k))
  | _ => jobs.committed c.jobId

structure ClosingInv (c : JobClosing) (tasks : Store TaskId TaskId Task)
    (jobs : Store TaskId JobId Job) (phase : Phases) : Prop where
  ownRow : ∀ k j row, tasks.locks k = some (j, row) →
    j = k ∧ c.session k = true ∧ (phase k).active = true ∧ ∀ t ∈ row, t.status.isOpen = false
  written : ∀ k, (phase k).active = true → ∃ row, tasks.locks k = some (k, row)
  openRow : ∀ k t, tasks.committed k = some t → t.jobId = some c.jobId →
    t.status.isOpen = true → c.session k = true ∧ phase k ≠ .committed
  known : ∀ k t, tasks.committed k = some t → k ∈ c.db.tasks.rows.map Task.id
  jobLock : ∀ j k row, jobs.locks j = some (k, row) → j = c.jobId ∧ (phase k).critical = true
  inLock : ∀ k, (phase k).critical = true →
    jobs.locks c.jobId = some (k, c.version tasks jobs k (phase k))
  counted : ∀ k n, phase k = .counted n → n = c.openSeen tasks k
  closed : ∀ job, jobs.committed c.jobId = some job → job.status = .completed →
    ∀ k t, tasks.committed k = some t → t.jobId = some c.jobId → t.status.isOpen = false
  remaining : (∃ k, c.session k = true ∧ phase k ≠ .committed) ∨
    ∃ job, jobs.committed c.jobId = some job ∧ job.status = .completed
  jobRow : ∃ job, jobs.committed c.jobId = some job

namespace ClosingInv

/-- A transaction reads the committed row of every task but its own. -/
theorem view_of_ne (inv : ClosingInv c tasks jobs phase) (h : i ≠ k) :
    tasks.view k i = tasks.committed i := by
  apply Store.view_of_unheld
  intro row hl
  exact h (inv.ownRow i k row hl).1.symm

theorem own_terminal (inv : ClosingInv c tasks jobs phase) (hp : (phase k).active = true)
    (ht : tasks.view k k = some t) : t.status.isOpen = false := by
  obtain ⟨row, hl⟩ := inv.written k hp
  rw [Store.view_of_held hl] at ht
  exact (inv.ownRow k k row hl).2.2.2 t ht

theorem view_known (inv : ClosingInv c tasks jobs phase) (ht : tasks.view k i = some t) :
    i ∈ c.db.tasks.rows.map Task.id := by
  by_cases h : ∃ row, tasks.locks i = some (k, row)
  · obtain ⟨row, hl⟩ := h
    exact JobClosing.session_known (inv.ownRow i k row hl).2.1
  · rw [Store.view_of_unheld (fun row hl => h ⟨row, hl⟩)] at ht
    exact inv.known i t ht

theorem openSeen_eq_zero_iff (inv : ClosingInv c tasks jobs phase) (k : TaskId) :
    c.openSeen tasks k = 0 ↔ ∀ i t, tasks.view k i = some t → t.jobId = some c.jobId →
      t.status.isOpen = false := by
  rw [JobClosing.openSeen, nonTerminalCount_eq_zero_iff]
  constructor
  · intro h i t ht
    obtain ⟨row, hr, rfl⟩ := List.mem_map.mp (inv.view_known ht)
    exact h t (List.mem_filterMap.mpr ⟨row, hr, ht⟩)
  · intro h t ht
    obtain ⟨row, _, hv⟩ := List.mem_filterMap.mp ht
    exact h row.id t hv

theorem init {job : Job} (hjob : c.db.jobs.get c.jobId = some job) (hs : job.status ≠ .completed)
    (hk : ∃ k, c.session k = true) : ClosingInv c c.init.tasks c.init.jobs c.init.phase := by
  obtain ⟨k, hk⟩ := hk
  refine ⟨?_, ?_, ?_, ?_, ?_, ?_, ?_, ?_, Or.inl ⟨k, hk, by simp [JobClosing.init]⟩, ⟨job, hjob⟩⟩
  · intro k j row hl
    simp [JobClosing.init, Store.idle] at hl
  · intro k hp
    simp [JobClosing.init, ClosingPhase.active] at hp
  · intro k t ht hj ho
    have hg : c.db.tasks.get k = some t := ht
    exact ⟨by simp [JobClosing.session, hg, hj, ho], by simp [JobClosing.init]⟩
  · intro k t ht
    obtain ⟨hm, rfl⟩ := Table.get_eq_some_iff.mp ht
    exact List.mem_map_of_mem hm
  · intro j k row hl
    simp [JobClosing.init, Store.idle] at hl
  · intro k hp
    simp [JobClosing.init, ClosingPhase.critical] at hp
  · intro k n hp
    simp [JobClosing.init] at hp
  · intro job' hj hc
    have same : job' = job := Option.some.inj (hj.symm.trans hjob)
    exact absurd (same ▸ hc) hs

theorem writeTask (inv : ClosingInv c tasks jobs phase) (hs : c.session k = true) (hp : phase k = .ready)
    (hf : tasks.free k k = true) :
    ClosingInv c (tasks.hold k k ((tasks.view k k).map (c.row k))) jobs
      (phase.move k .written) := by
  have others : ∀ i, (phase.move k .written i).critical = true → i ≠ k ∧ (phase i).critical = true := by
    intro i hi
    by_cases h : i = k
    · subst h
      simp [Phases.move_self, ClosingPhase.critical] at hi
    · rw [Phases.move_of_ne h] at hi
      exact ⟨h, hi⟩
  have seen : ∀ i, i ≠ k → c.openSeen (tasks.hold k k ((tasks.view k k).map (c.row k))) i =
      c.openSeen tasks i := by
    intro i h
    simp only [JobClosing.openSeen, Store.view_hold_other hf h]
  refine ⟨?_, ?_, ?_, inv.known, ?_, ?_, ?_, inv.closed, ?_, inv.jobRow⟩
  · intro i j row hl
    by_cases h : i = k
    · subst h
      rw [Store.hold_locks_self] at hl
      obtain ⟨rfl, rfl⟩ := Prod.mk.inj (Option.some.inj hl)
      refine ⟨rfl, hs, by rw [Phases.move_self]; rfl, ?_⟩
      intro t ht
      obtain ⟨old, _, rfl⟩ := Option.map_eq_some_iff.mp ht
      exact JobClosing.row_terminal _ old
    · rw [Store.hold_locks_of_ne h] at hl
      rw [Phases.move_of_ne h]
      exact inv.ownRow i j row hl
  · intro i hi
    by_cases h : i = k
    · subst h
      exact ⟨_, Store.hold_locks_self⟩
    · rw [Phases.move_of_ne h] at hi
      rw [Store.hold_locks_of_ne h]
      exact inv.written i hi
  · intro i t ht hj ho
    obtain ⟨hi, hpi⟩ := inv.openRow i t ht hj ho
    refine ⟨hi, ?_⟩
    by_cases h : i = k
    · subst h
      simp [Phases.move_self]
    · rwa [Phases.move_of_ne h]
  · intro j i row hl
    obtain ⟨hj, hc⟩ := inv.jobLock j i row hl
    have h : i ≠ k := by
      rintro rfl
      simp [hp, ClosingPhase.critical] at hc
    exact ⟨hj, by rwa [Phases.move_of_ne h]⟩
  · intro i hi
    obtain ⟨h, hc⟩ := others i hi
    have hl := inv.inLock i hc
    rw [Phases.move_of_ne h]
    cases hpi : phase i <;> simpa [hpi, JobClosing.version, seen i h] using hl
  · intro i n hi
    have hc : (phase.move k .written i).critical = true := by rw [hi]; rfl
    obtain ⟨h, _⟩ := others i hc
    rw [Phases.move_of_ne h] at hi
    rw [seen i h]
    exact inv.counted i n hi
  · rcases inv.remaining with ⟨i, hi, hpi⟩ | done
    · left
      by_cases h : i = k
      · exact ⟨i, hi, by rw [h, Phases.move_self]; simp⟩
      · exact ⟨i, hi, by rwa [Phases.move_of_ne h]⟩
    · exact Or.inr done

/-- The steps inside the lock on the job row. -/
theorem advance (inv : ClosingInv c tasks jobs phase) (hf : jobs.free k c.jobId = true)
    (ha : (phase k).active = true) (hc : p.critical = true)
    (hn : ∀ n, p = .counted n → n = c.openSeen tasks k) :
    ClosingInv c tasks (jobs.hold k c.jobId (c.version tasks jobs k p)) (phase.move k p) := by
  have alone : ∀ i, (phase i).critical = true → i = k :=
    fun i hi => Store.eq_of_free hf (inv.inLock i hi)
  have uncommitted : ∀ i, phase i ≠ .committed → phase.move k p i ≠ .committed := by
    intro i hi
    by_cases h : i = k
    · subst h
      rw [Phases.move_self]
      rintro rfl
      simp [ClosingPhase.critical] at hc
    · rwa [Phases.move_of_ne h]
  refine ⟨?_, ?_, ?_, inv.known, ?_, ?_, ?_, inv.closed, ?_, inv.jobRow⟩
  · intro i j row hl
    obtain ⟨hj, hs, hi, ht⟩ := inv.ownRow i j row hl
    refine ⟨hj, hs, ?_, ht⟩
    by_cases h : i = k
    · subst h
      rw [Phases.move_self]
      exact ClosingPhase.active_of_critical hc
    · rwa [Phases.move_of_ne h]
  · intro i hi
    by_cases h : i = k
    · subst h
      exact inv.written i ha
    · rw [Phases.move_of_ne h] at hi
      exact inv.written i hi
  · intro i t ht hj ho
    obtain ⟨hs, hi⟩ := inv.openRow i t ht hj ho
    exact ⟨hs, uncommitted i hi⟩
  · intro j i row hl
    by_cases h : j = c.jobId
    · subst h
      rw [Store.hold_locks_self] at hl
      obtain ⟨rfl, rfl⟩ := Prod.mk.inj (Option.some.inj hl)
      exact ⟨rfl, by rw [Phases.move_self]; exact hc⟩
    · rw [Store.hold_locks_of_ne h] at hl
      exact absurd (inv.jobLock j i row hl).1 h
  · intro i hi
    have h : i = k := by
      by_contra h
      rw [Phases.move_of_ne h] at hi
      exact h (alone i hi)
    subst h
    rw [Store.hold_locks_self, Phases.move_self]
    cases p <;> rfl
  · intro i n hi
    by_cases h : i = k
    · subst h
      rw [Phases.move_self] at hi
      exact hn n hi
    · rw [Phases.move_of_ne h] at hi
      have hci : (phase i).critical = true := by rw [hi]; rfl
      exact absurd (alone i hci) h
  · rcases inv.remaining with ⟨i, hs, hi⟩ | done
    · exact Or.inl ⟨i, hs, uncommitted i hi⟩
    · exact Or.inr done

/-- The last transaction through the job lock sees every other task terminal. -/
theorem commit (inv : ClosingInv c tasks jobs phase) (hp : phase k = .evaluated) :
    ClosingInv c (tasks.commit k) (jobs.commit k) (phase.move k .committed) := by
  have ha : (phase k).active = true := by rw [hp]; rfl
  have hc : (phase k).critical = true := by rw [hp]; rfl
  have held := inv.inLock k hc
  have alone : ∀ i, (phase i).critical = true → i = k := by
    intro i hi
    have hl := inv.inLock i hi
    rw [held] at hl
    exact (Prod.mk.inj (Option.some.inj hl)).1.symm
  have stillCritical : ∀ i, (phase.move k .committed i).critical = true → False := by
    intro i hi
    by_cases h : i = k
    · subst h
      simp [Phases.move_self, ClosingPhase.critical] at hi
    · rw [Phases.move_of_ne h] at hi
      exact h (alone i hi)
  have after : jobs.view k c.jobId =
      (jobs.committed c.jobId).map (evaluateJobStatus (c.openSeen tasks k) (c.now k)) := by
    rw [Store.view_of_held held, hp]
    rfl
  have seen : ∀ i t, tasks.view k i = some t → t.jobId = some c.jobId → t.status.isOpen = true →
      i ≠ k ∧ c.session i = true ∧ phase i ≠ .committed := by
    intro i t ht hj ho
    have h : i ≠ k := by
      rintro rfl
      rw [inv.own_terminal ha ht] at ho
      cases ho
    rw [inv.view_of_ne h] at ht
    exact ⟨h, inv.openRow i t ht hj ho⟩
  obtain ⟨job, hjob⟩ := inv.jobRow
  rw [hjob, Option.map_some] at after
  refine ⟨?_, ?_, ?_, ?_, ?_, ?_, ?_, ?_, ?_, ⟨_, after⟩⟩
  · intro i j row hl
    obtain ⟨hl, hne⟩ := Store.release_eq_some_iff.mp hl
    obtain ⟨rfl, hs, hi, ht⟩ := inv.ownRow i j row hl
    exact ⟨rfl, hs, by rwa [Phases.move_of_ne hne], ht⟩
  · intro i hi
    have h : i ≠ k := by
      rintro rfl
      simp [Phases.move_self, ClosingPhase.active] at hi
    rw [Phases.move_of_ne h] at hi
    obtain ⟨row, hl⟩ := inv.written i hi
    exact ⟨row, Store.release_eq_some_iff.mpr ⟨hl, h⟩⟩
  · intro i t ht hj ho
    obtain ⟨h, hs, hi⟩ := seen i t ht hj ho
    exact ⟨hs, by rwa [Phases.move_of_ne h]⟩
  · intro i t ht
    exact inv.view_known ht
  · intro j i row hl
    obtain ⟨hl, hne⟩ := Store.release_eq_some_iff.mp hl
    exact absurd (alone i (inv.jobLock j i row hl).2) hne
  · intro i hi
    exact (stillCritical i hi).elim
  · intro i n hi
    exact (stillCritical i (by rw [hi]; rfl)).elim
  · intro job' hj hcompleted i t ht hjob'
    have evaluated : job' = evaluateJobStatus (c.openSeen tasks k) (c.now k) job :=
      Option.some.inj (hj.symm.trans after)
    rw [evaluated, evaluateJobStatus_completed_iff] at hcompleted
    rcases hcompleted with none_open | before
    · exact (inv.openSeen_eq_zero_iff k).mp none_open i t ht hjob'
    · by_contra ho
      obtain ⟨h, _⟩ := seen i t ht hjob' (by simpa using ho)
      have hcommitted : tasks.committed i = some t := by rw [← inv.view_of_ne h]; exact ht
      exact ho (inv.closed job hjob before i t hcommitted hjob')
  · by_cases last : ∃ i, i ≠ k ∧ c.session i = true ∧ phase i ≠ .committed
    · obtain ⟨i, h, hs, hi⟩ := last
      exact Or.inl ⟨i, hs, by rwa [Phases.move_of_ne h]⟩
    · have none_open : c.openSeen tasks k = 0 := by
        rw [inv.openSeen_eq_zero_iff]
        intro i t ht hj
        by_contra ho
        exact last ⟨i, seen i t ht hj (by simpa using ho)⟩
      exact Or.inr ⟨_, after, (evaluateJobStatus_completed_iff _ _ _).mpr (Or.inl none_open)⟩

end ClosingInv

theorem closingInv_step {s s' : ClosingState} {step : ClosingStep}
    (inv : ClosingInv c s.tasks s.jobs s.phase) (h : c.next s step = some s') :
    ClosingInv c s'.tasks s'.jobs s'.phase := by
  cases step with
  | writeTask k =>
    obtain ⟨⟨hs, hp⟩, h⟩ := Option.ite_none_right_eq_some.mp h
    obtain ⟨tasks, hw, rfl⟩ := Option.map_eq_some_iff.mp h
    obtain ⟨hf, rfl⟩ := Store.write_eq_some_iff.mp hw
    exact inv.writeTask hs hp hf
  | lockJob k =>
    obtain ⟨hp, h⟩ := Option.ite_none_right_eq_some.mp h
    obtain ⟨jobs, hl, rfl⟩ := Option.map_eq_some_iff.mp h
    obtain ⟨hf, rfl⟩ := Store.lock_eq_some_iff.mp hl
    have unread : s.jobs.view k c.jobId = s.jobs.committed c.jobId := by
      apply Store.view_of_unheld
      intro row held
      have hc := (inv.jobLock _ _ _ held).2
      simp [hp, ClosingPhase.critical] at hc
    have ha : (s.phase k).active = true := by rw [hp]; rfl
    have advanced := inv.advance (p := .locked) hf ha rfl (by simp)
    simpa only [JobClosing.version, unread] using advanced
  | countOpen k =>
    obtain ⟨hp, h⟩ := Option.ite_none_right_eq_some.mp h
    cases Option.some.inj h
    have hc : (s.phase k).critical = true := by rw [hp]; rfl
    have held := inv.inLock k hc
    have hf : s.jobs.free k c.jobId = true := by simp [Store.free, held]
    have same : s.jobs.hold k c.jobId (s.jobs.committed c.jobId) = s.jobs := by
      have hv : c.version s.tasks s.jobs k (s.phase k) = s.jobs.committed c.jobId := by rw [hp]; rfl
      rw [hv] at held
      simp [Store.hold, ← held]
    have advanced := inv.advance (p := .counted (c.openSeen s.tasks k)) hf
      (ClosingPhase.active_of_critical hc) rfl (fun n hn => (ClosingPhase.counted.inj hn).symm)
    simpa only [JobClosing.version, same] using advanced
  | writeJob k =>
    simp only [JobClosing.next] at h
    split at h
    next n hp =>
      obtain ⟨jobs, hw, rfl⟩ := Option.map_eq_some_iff.mp h
      obtain ⟨hf, rfl⟩ := Store.write_eq_some_iff.mp hw
      have hc : (s.phase k).critical = true := by rw [hp]; rfl
      have held := inv.inLock k hc
      have read : s.jobs.view k c.jobId = s.jobs.committed c.jobId := by
        rw [Store.view_of_held held, hp]
        rfl
      have advanced := inv.advance (p := .evaluated) hf (ClosingPhase.active_of_critical hc) rfl (by simp)
      rw [read, inv.counted k n hp]
      exact advanced
    next => simp at h
  | commit k =>
    obtain ⟨hp, h⟩ := Option.ite_none_right_eq_some.mp h
    cases Option.some.inj h
    exact inv.commit hp

theorem closingInv_run {s : ClosingState} {trace : List (ClosingState × ClosingStep)} {job : Job}
    (hjob : c.db.jobs.get c.jobId = some job) (hs : job.status ≠ .completed)
    (hk : ∃ k, c.session k = true) (run : Run c.next c.init trace s) :
    ClosingInv c s.tasks s.jobs s.phase :=
  run.invariant (P := fun u => ClosingInv c u.tasks u.jobs u.phase) (ClosingInv.init hjob hs hk)
    closingInv_step

end DomainProcessing
