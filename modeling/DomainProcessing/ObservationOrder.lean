import DomainProcessing.DomainProbing
import DomainProcessing.RowLocks
import DomainProcessing.Runs

namespace DomainProcessing

open RowLocks Runs

/-- Where one execution of `_persist_domain_detail` and the rest of its
transaction stand. -/
inductive PersistStage
  | started
  | prepared (nextRefresh : Instant)
  | versionRead (nextRefresh : Instant) (existing : Option DomainDetail)
  | upserting (detail : DomainDetail) (expected : Int) (retry : Bool)
  | missed (detail : DomainDetail) (retry : Bool)
  | absent (detail : DomainDetail)
  | conflicted (detail : DomainDetail)
  | persisted
  | raised
  | ended

/-- The statements of an execution, and the clock. -/
inductive PersistStep (ω : Type*)
  | prepare (w : ω)
  | readVersion (w : ω)
  | observe (w : ω)
  | update (w : ω)
  | lookUp (w : ω)
  | insert (w : ω)
  | reread (w : ω)
  | commit (w : ω)
  | rollback (w : ω)
  | tick (elapsed : Nat)

/-- The row of one domain, under any number of executions. -/
structure PersistState (ω : Type*) where
  now : Instant
  rows : Store ω Unit DomainDetail
  stage : ω → PersistStage

namespace PersistState

variable {ω : Type*}

def start (now : Instant) (stored : Option DomainDetail) : PersistState ω :=
  ⟨now, Store.idle fun _ => stored, fun _ => .started⟩

def stored (s : PersistState ω) : Option DomainDetail := s.rows.committed ()

variable [DecidableEq ω]

def goto (s : PersistState ω) (w : ω) (stage : PersistStage) : PersistState ω :=
  { s with stage := Function.update s.stage w stage }

/-- The row that a statement of `w` reads. -/
def read (s : PersistState ω) (w : ω) : Option DomainDetail := s.rows.view w ()

/-- A write of `w`, not committed yet; `none` while it waits for the row. -/
def write (s : PersistState ω) (w : ω) (row : DomainDetail) : Option (PersistState ω) :=
  if s.rows.free w () then some { s.goto w .persisted with rows := s.rows.hold w () (some row) } else none

end PersistState

section Executions

variable {ω : Type*} [DecidableEq ω]

/-- The detail of an execution; the refresh instant was computed before the read. -/
def builtDetail (domainId : DomainId) (dns : DnsResult) (http : HttpResult) (now nextRefresh : Instant)
    (existing : Option DomainDetail) : DomainDetail :=
  { observation domainId dns http now existing with nextRefreshAt := nextRefresh }

/-- `update` finds no row of the expected version, or waits for the one it finds;
an insert waits for another one and then violates the primary key. -/
def persistNext (domainId : DomainId) (dns : ω → DnsResult) (http : ω → HttpResult)
    (s : PersistState ω) : PersistStep ω → Option (PersistState ω)
  | .prepare w =>
    match s.stage w with
    | .started =>
      some (s.goto w (.prepared (s.now + if (http w).isSuccess then seconds 86400 else seconds 3600)))
    | _ => none
  | .readVersion w =>
    match s.stage w with
    | .prepared nextRefresh => some (s.goto w (.versionRead nextRefresh (s.read w)))
    | _ => none
  | .observe w =>
    match s.stage w with
    | .versionRead nextRefresh existing =>
      some (s.goto w (.upserting (builtDetail domainId (dns w) (http w) s.now nextRefresh existing)
        (expectedVersion existing) false))
    | _ => none
  | .update w =>
    match s.stage w with
    | .upserting detail expected retry =>
      match s.read w with
      | none => some (s.goto w (.missed detail retry))
      | some row =>
        if row.version = expected then s.write w { detail with version := expected + 1 }
        else some (s.goto w (.missed detail retry))
    | _ => none
  | .lookUp w =>
    match s.stage w with
    | .missed detail retry =>
      match s.read w with
      | none => some (s.goto w (.absent detail))
      | some _ => some (s.goto w (if retry then .raised else .conflicted detail))
    | _ => none
  | .insert w =>
    match s.stage w with
    | .absent detail =>
      match s.read w with
      | none => s.write w { detail with version := 1 }
      | some _ => some (s.goto w .raised)
    | _ => none
  | .reread w =>
    match s.stage w with
    | .conflicted detail =>
      match s.read w with
      | none => some (s.goto w .raised)
      | some existing =>
        some (s.goto w (.upserting { detail with version := existing.version + 1 } existing.version true))
    | _ => none
  | .commit w =>
    match s.stage w with
    | .persisted => some { s.goto w .ended with rows := s.rows.commit w }
    | _ => none
  | .rollback w =>
    match s.stage w with
    | .ended => none
    | _ => some { s.goto w .ended with rows := s.rows.rollback w }
  | .tick elapsed => some { s with now := s.now + elapsed }

/-- What an execution at this stage knows about the stored row: a first upsert
with the stored version is not older than the row. -/
def PersistStage.Knows (now : Instant) (stored : Option DomainDetail) : PersistStage → Prop
  | .versionRead _ existing => expectedVersion existing ≤ expectedVersion stored
  | .upserting detail expected retry => detail.fetchedAt ≤ now ∧ (retry = false →
      expected ≤ expectedVersion stored ∧
        ∀ row, stored = some row → row.version = expected → row.fetchedAt ≤ detail.fetchedAt)
  | .missed detail _ | .absent detail | .conflicted detail => detail.fetchedAt ≤ now
  | .started | .prepared _ | .persisted | .raised | .ended => True

/-- A row that may replace the stored one. -/
structure Successor (now : Instant) (stored : Option DomainDetail) (row : DomainDetail) : Prop where
  past : row.fetchedAt ≤ now
  version : row.version = expectedVersion stored + 1
  later : ∀ old, stored = some old → old.fetchedAt ≤ row.fetchedAt

structure PersistInv (s : PersistState ω) : Prop where
  past : ∀ row, s.stored = some row → row.fetchedAt ≤ s.now
  held : ∀ w written, s.rows.locks () = some (w, written) →
    s.stage w = .persisted ∧ ∃ row, written = some row ∧ Successor s.now s.stored row
  knows : ∀ w, (s.stage w).Knows s.now s.stored

variable {domainId : DomainId} {dns : ω → DnsResult} {http : ω → HttpResult} {s s' : PersistState ω}
  {w : ω} {now : Instant} {stored : Option DomainDetail}

omit [DecidableEq ω] in
theorem persistInv_start (past : ∀ row, stored = some row → row.fetchedAt ≤ now) :
    PersistInv (PersistState.start now stored : PersistState ω) := by
  refine ⟨past, ?_, ?_⟩
  · intro w written h
    cases h
  · intro w
    exact trivial

theorem PersistStage.Knows.later {stage : PersistStage} {next : Instant} (le : now ≤ next) (h : stage.Knows now stored) :
    stage.Knows next stored := by
  cases stage with
  | versionRead => exact h
  | upserting => exact ⟨h.1.trans le, h.2⟩
  | missed | absent | conflicted => exact le_trans (α := Int) h le
  | started | prepared | persisted | raised | ended => trivial

/-- After a commit the versions read before are no longer the stored one. -/
theorem PersistStage.Knows.replaced {stage : PersistStage} {row : DomainDetail} (next : Successor now stored row)
    (h : stage.Knows now stored) : stage.Knows now (some row) := by
  have grown : expectedVersion (some row) = expectedVersion stored + 1 := next.version
  cases stage with
  | versionRead nextRefresh existing =>
    have before : expectedVersion existing ≤ expectedVersion stored := h
    show expectedVersion existing ≤ expectedVersion (some row)
    omega
  | upserting detail expected retry =>
    refine ⟨h.1, ?_⟩
    intro first
    have before := (h.2 first).1
    refine ⟨by omega, ?_⟩
    intro found same version
    cases Option.some.inj same
    have stale : row.version = expectedVersion stored + 1 := next.version
    omega
  | missed | absent | conflicted => exact h
  | started | prepared | persisted | raised | ended => trivial

/-- Outside of its own write, an execution reads what is committed. -/
theorem read_eq_stored (inv : PersistInv s) (h : s.stage w ≠ .persisted) : s.read w = s.stored := by
  refine Store.view_of_unheld ?_
  intro written locked
  exact h (inv.held w written locked).1

theorem PersistInv.goto (inv : PersistInv s) {stage : PersistStage} (unwritten : s.stage w ≠ .persisted)
    (h : stage.Knows s.now s.stored) : PersistInv (s.goto w stage) := by
  refine ⟨inv.past, ?_, ?_⟩
  · intro w' written locked
    obtain ⟨persisted, row⟩ := inv.held w' written locked
    have other : w' ≠ w := by
      rintro rfl
      exact unwritten persisted
    exact ⟨(Function.update_of_ne other _ _).trans persisted, row⟩
  · intro w'
    show (Function.update s.stage w stage w').Knows s.now s.stored
    by_cases same : w' = w
    · rw [same, Function.update_self]
      exact h
    · rw [Function.update_of_ne same]
      exact inv.knows w'

theorem PersistInv.write (inv : PersistInv s) {row : DomainDetail} (next : Successor s.now s.stored row)
    (h : s.write w row = some s') : PersistInv s' ∧ s'.stored = s.stored := by
  unfold PersistState.write at h
  obtain ⟨free, h⟩ := Option.ite_none_right_eq_some.mp h
  cases Option.some.inj h
  refine ⟨⟨inv.past, ?_, ?_⟩, rfl⟩
  · intro w' written locked
    rw [Store.hold_locks_self] at locked
    cases Option.some.inj locked
    exact ⟨Function.update_self .., row, rfl, next⟩
  · intro w'
    show (Function.update s.stage w .persisted w').Knows s.now s.stored
    by_cases same : w' = w
    · rw [same, Function.update_self]
      trivial
    · rw [Function.update_of_ne same]
      exact inv.knows w'

/-- Ending a transaction leaves the other executions where they are. -/
theorem PersistInv.ended (inv : PersistInv s) {rows : Store ω Unit DomainDetail}
    (released : rows.locks = s.rows.release w)
    (past : ∀ row, rows.committed () = some row → row.fetchedAt ≤ s.now)
    (knows : ∀ stage : PersistStage, stage.Knows s.now s.stored → stage.Knows s.now (rows.committed ()))
    (alone : ∀ w' written, s.rows.locks () = some (w', written) → w' ≠ w → rows.committed () = s.stored) :
    PersistInv { s.goto w .ended with rows := rows } := by
  refine ⟨past, ?_, ?_⟩
  · intro w' written locked
    have kept : rows.locks () = some (w', written) := locked
    rw [released, Store.release_eq_some_iff] at kept
    obtain ⟨before, other⟩ := kept
    obtain ⟨persisted, row, same, next⟩ := inv.held w' written before
    refine ⟨(Function.update_of_ne other _ _).trans persisted, row, same, ?_⟩
    show Successor s.now (rows.committed ()) row
    rw [alone w' written before other]
    exact next
  · intro w'
    show (Function.update s.stage w .ended w').Knows s.now (rows.committed ())
    by_cases same : w' = w
    · rw [same, Function.update_self]
      trivial
    · rw [Function.update_of_ne same]
      exact knows _ (inv.knows w')

/-- A row that is there stays there and gets no older observation. -/
def NotBefore (old new : Option DomainDetail) : Prop :=
  ∀ row, old = some row → ∃ row', new = some row' ∧ row.fetchedAt ≤ row'.fetchedAt

theorem NotBefore.refl (stored : Option DomainDetail) : NotBefore stored stored :=
  fun row h => ⟨row, h, le_refl _⟩

theorem NotBefore.trans {a b c : Option DomainDetail} (h : NotBefore a b) (h' : NotBefore b c) :
    NotBefore a c := by
  intro row hr
  obtain ⟨mid, hm, le⟩ := h row hr
  obtain ⟨last, hl, le'⟩ := h' mid hm
  exact ⟨last, hl, le.trans le'⟩

theorem commit_step (inv : PersistInv s) (h : persistNext domainId dns http s (.commit w) = some s') :
    PersistInv s' ∧ NotBefore s.stored s'.stored := by
  simp only [persistNext] at h
  split at h
  next =>
    cases Option.some.inj h
    show PersistInv { s.goto w .ended with rows := s.rows.commit w } ∧ NotBefore s.stored (s.rows.view w ())
    by_cases mine : ∃ written, s.rows.locks () = some (w, written)
    · obtain ⟨written, locked⟩ := mine
      obtain ⟨_, row, rfl, next⟩ := inv.held w written locked
      have new : s.rows.view w () = some row := Store.view_of_held locked
      refine ⟨inv.ended rfl ?_ ?_ ?_, ?_⟩
      · rw [Store.commit_committed, new]
        intro found same
        cases Option.some.inj same
        exact next.past
      · rw [Store.commit_committed, new]
        intro stage
        exact PersistStage.Knows.replaced next
      · intro w' written' locked' other
        rw [locked] at locked'
        cases Option.some.inj locked'
        exact absurd rfl other
      · rw [new]
        intro old stored
        exact ⟨row, rfl, next.later old stored⟩
    · have same : s.rows.view w () = s.stored :=
        Store.view_of_unheld fun written locked => mine ⟨written, locked⟩
      refine ⟨inv.ended rfl ?_ ?_ ?_, ?_⟩
      · rw [Store.commit_committed, same]
        exact inv.past
      · rw [Store.commit_committed, same]
        exact fun _ knows => knows
      · intro _ _ _ _
        exact same
      · rw [same]
        exact NotBefore.refl _
  next => cases h

/-- A retry that finds the version it has read again finds no later observation. -/
def retryInOrder (s : PersistState ω) : PersistStep ω → Bool
  | .update w =>
    match s.stage w with
    | .upserting detail expected true =>
      s.stored.all fun row => decide (row.version = expected → row.fetchedAt ≤ detail.fetchedAt)
    | _ => true
  | _ => true

theorem update_step (inv : PersistInv s) (ordered : retryInOrder s (.update w) = true)
    (h : persistNext domainId dns http s (.update w) = some s') : PersistInv s' ∧ s'.stored = s.stored := by
  simp only [persistNext] at h
  split at h
  next detail expected retry stage =>
    have knows := inv.knows w
    rw [stage] at knows
    have unwritten : s.stage w ≠ .persisted := by simp [stage]
    have reads := read_eq_stored inv unwritten
    split at h
    next =>
      cases Option.some.inj h
      exact ⟨inv.goto unwritten knows.1, rfl⟩
    next row found =>
      have stored : s.stored = some row := reads.symm.trans found
      split at h
      next same =>
        have next : Successor s.now s.stored { detail with version := expected + 1 } := by
          refine ⟨knows.1, ?_, ?_⟩
          · rw [stored]
            exact congrArg (· + 1) same.symm
          · intro old ho
            cases Option.some.inj (stored.symm.trans ho)
            cases retry with
            | false => exact (knows.2 rfl).2 row stored same
            | true =>
              simp only [retryInOrder, stage, stored, Option.all_some, decide_eq_true_eq] at ordered
              exact ordered same
        exact inv.write next h
      next =>
        cases Option.some.inj h
        exact ⟨inv.goto unwritten knows.1, rfl⟩
  next => cases h

theorem insert_step (inv : PersistInv s) (h : persistNext domainId dns http s (.insert w) = some s') :
    PersistInv s' ∧ s'.stored = s.stored := by
  simp only [persistNext] at h
  split at h
  next detail stage =>
    have knows := inv.knows w
    rw [stage] at knows
    have unwritten : s.stage w ≠ .persisted := by simp [stage]
    have reads := read_eq_stored inv unwritten
    split at h
    next found =>
      have stored : s.stored = none := reads.symm.trans found
      have next : Successor s.now s.stored { detail with version := 1 } := by
        refine ⟨knows, ?_, ?_⟩
        · rw [stored]
          rfl
        · intro old ho
          cases stored.symm.trans ho
      exact inv.write next h
    next =>
      cases Option.some.inj h
      exact ⟨inv.goto unwritten trivial, rfl⟩
  next => cases h

/-- The steps that only read, or only look at the clock. -/
theorem reading_step (inv : PersistInv s) {step : PersistStep ω}
    (reading : step = .prepare w ∨ step = .readVersion w ∨ step = .observe w ∨ step = .lookUp w ∨
      step = .reread w)
    (h : persistNext domainId dns http s step = some s') : PersistInv s' ∧ s'.stored = s.stored := by
  rcases reading with rfl | rfl | rfl | rfl | rfl <;> simp only [persistNext] at h <;> split at h
  next stage =>
    cases Option.some.inj h
    exact ⟨inv.goto (by simp [stage]) trivial, rfl⟩
  next => cases h
  next stage =>
    cases Option.some.inj h
    have unwritten : s.stage w ≠ .persisted := by simp [stage]
    have reads := read_eq_stored inv unwritten
    refine ⟨inv.goto unwritten ?_, rfl⟩
    show expectedVersion (s.read w) ≤ expectedVersion s.stored
    rw [reads]
  next => cases h
  next nextRefresh existing stage =>
    cases Option.some.inj h
    have knows := inv.knows w
    rw [stage] at knows
    refine ⟨inv.goto (by simp [stage]) ⟨le_refl _, fun _ => ⟨knows, ?_⟩⟩, rfl⟩
    intro row stored _
    exact inv.past row stored
  next => cases h
  next detail retry stage =>
    have knows := inv.knows w
    rw [stage] at knows
    have unwritten : s.stage w ≠ .persisted := by simp [stage]
    split at h
    · cases Option.some.inj h
      exact ⟨inv.goto unwritten knows, rfl⟩
    · cases Option.some.inj h
      cases retry with
      | false => exact ⟨inv.goto unwritten knows, rfl⟩
      | true => exact ⟨inv.goto unwritten trivial, rfl⟩
  next => cases h
  next detail stage =>
    have knows := inv.knows w
    rw [stage] at knows
    have unwritten : s.stage w ≠ .persisted := by simp [stage]
    split at h
    · cases Option.some.inj h
      exact ⟨inv.goto unwritten trivial, rfl⟩
    · cases Option.some.inj h
      refine ⟨inv.goto unwritten ⟨knows, ?_⟩, rfl⟩
      intro first
      cases first
  next => cases h

theorem rollback_step (inv : PersistInv s) (h : persistNext domainId dns http s (.rollback w) = some s') :
    PersistInv s' ∧ s'.stored = s.stored := by
  simp only [persistNext] at h
  split at h
  next => cases h
  next =>
    cases Option.some.inj h
    exact ⟨inv.ended rfl inv.past (fun _ knows => knows) (fun _ _ _ _ => rfl), rfl⟩

theorem tick_step (inv : PersistInv s) {elapsed : Nat}
    (h : persistNext domainId dns http s (.tick elapsed) = some s') : PersistInv s' ∧ s'.stored = s.stored := by
  cases Option.some.inj h
  have later : s.now ≤ s.now + elapsed := Int.le_add_of_nonneg_right (Int.natCast_nonneg elapsed)
  refine ⟨⟨?_, ?_, ?_⟩, rfl⟩
  · intro row stored
    exact (inv.past row stored).trans later
  · intro w written locked
    obtain ⟨persisted, row, same, next⟩ := inv.held w written locked
    exact ⟨persisted, row, same, next.past.trans later, next.version, next.later⟩
  · intro w
    exact PersistStage.Knows.later later (inv.knows w)

theorem persist_step (inv : PersistInv s) {step : PersistStep ω} (ordered : retryInOrder s step = true)
    (h : persistNext domainId dns http s step = some s') : PersistInv s' ∧ NotBefore s.stored s'.stored := by
  have unchanged : PersistInv s' ∧ s'.stored = s.stored → PersistInv s' ∧ NotBefore s.stored s'.stored := by
    rintro ⟨inv', same⟩
    rw [same]
    exact ⟨inv', NotBefore.refl _⟩
  cases step with
  | prepare w => exact unchanged (reading_step inv (Or.inl rfl) h)
  | readVersion w => exact unchanged (reading_step inv (Or.inr (Or.inl rfl)) h)
  | observe w => exact unchanged (reading_step inv (Or.inr (Or.inr (Or.inl rfl))) h)
  | lookUp w => exact unchanged (reading_step inv (Or.inr (Or.inr (Or.inr (Or.inl rfl)))) h)
  | reread w => exact unchanged (reading_step inv (Or.inr (Or.inr (Or.inr (Or.inr rfl)))) h)
  | update w => exact unchanged (update_step inv ordered h)
  | insert w => exact unchanged (insert_step inv h)
  | rollback w => exact unchanged (rollback_step inv h)
  | tick elapsed => exact unchanged (tick_step inv h)
  | commit w => exact commit_step inv h

theorem persist_run {trace : List (PersistState ω × PersistStep ω)} {t : PersistState ω} (inv : PersistInv s)
    (run : Run (persistNext domainId dns http) s trace t) (ordered : ∀ p ∈ trace, retryInOrder p.1 p.2 = true) :
    PersistInv t ∧ NotBefore s.stored t.stored := by
  induction run with
  | start => exact ⟨inv, NotBefore.refl _⟩
  | step _ h ih =>
    obtain ⟨now, before⟩ := List.forall_mem_cons.mp ordered
    obtain ⟨inv', kept⟩ := ih before
    obtain ⟨inv'', next⟩ := persist_step inv' now h
    exact ⟨inv'', kept.trans next⟩

/-- Between any two states of a run whose retries meet no later observation,
the stored observation does not go back. -/
theorem observations_in_order {earlier later : List (PersistState ω × PersistStep ω)} {t : PersistState ω}
    (past : ∀ row, stored = some row → row.fetchedAt ≤ now)
    (first : Run (persistNext domainId dns http) (PersistState.start now stored) earlier s)
    (second : Run (persistNext domainId dns http) s later t)
    (ordered : ∀ p ∈ later ++ earlier, retryInOrder p.1 p.2 = true) : NotBefore s.stored t.stored := by
  obtain ⟨inv, _⟩ := persist_run (persistInv_start past) first
    fun p hp => ordered p (List.mem_append_right _ hp)
  exact (persist_run inv second fun p hp => ordered p (List.mem_append_left _ hp)).2

end Executions

/-- Two executions find no row; the second one observes 5 later, and one of them
commits a first row. -/
def insertingSteps {ω : Type*} (one two winner : ω) : List (PersistStep ω) :=
  [.prepare one, .prepare two, .readVersion one, .readVersion two, .observe one, .tick 5, .observe two,
    .update winner, .lookUp winner, .insert winner, .commit winner]

/-- An execution that is in conflict with the stored version tries again. -/
def retryingSteps {ω : Type*} (w : ω) : List (PersistStep ω) :=
  [.update w, .lookUp w, .reread w, .update w, .commit w]

def observedDns : DnsResult := ⟨["93.184.216.34"], [], none, none⟩

def observedHttp : HttpResult := ⟨200, [], 5, none, none⟩

def persistSample : PersistState (Fin 2) → PersistStep (Fin 2) → Option (PersistState (Fin 2)) :=
  persistNext 11 (fun _ => observedDns) (fun _ => observedHttp)

/-- The row observed at 5 is replaced by the observation of 0. -/
theorem observations_overtaken :
    ((exec persistSample (PersistState.start 0 none) (insertingSteps 0 1 1)).bind
      PersistState.stored).map DomainDetail.fetchedAt = some 5 ∧
    ((exec persistSample (PersistState.start 0 none) (insertingSteps 0 1 1 ++ retryingSteps 0)).bind
      PersistState.stored).map DomainDetail.fetchedAt = some 0 := by
  decide +kernel

/-- Here the retry carries the later observation. -/
theorem observations_in_order_retried : ∃ s t,
    exec persistSample (PersistState.start 0 none) (insertingSteps 0 1 0) = some s ∧
      exec persistSample s (retryingSteps 1) = some t ∧ NotBefore s.stored t.stored := by
  obtain ⟨s, first⟩ : ∃ s, exec persistSample (PersistState.start 0 none) (insertingSteps 0 1 0) = some s :=
    ⟨_, rfl⟩
  have both : (exec persistSample (PersistState.start 0 none) (insertingSteps 0 1 0 ++ retryingSteps 1)).isSome := by
    decide +kernel
  rw [exec_append first] at both
  obtain ⟨t, second⟩ := Option.isSome_iff_exists.mp both
  have whole : ∀ p ∈ steps persistSample (PersistState.start 0 none) (insertingSteps 0 1 0 ++ retryingSteps 1),
      retryInOrder p.1 p.2 = true := by decide +kernel
  rw [steps_append first] at whole
  have past : ∀ row : DomainDetail, (none : Option DomainDetail) = some row → row.fetchedAt ≤ 0 := by
    intro row h
    cases h
  exact ⟨s, t, first, second, observations_in_order past (exec_run first) (exec_run second) whole⟩

end DomainProcessing
