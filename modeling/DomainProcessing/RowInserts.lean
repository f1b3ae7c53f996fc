import DomainProcessing.RowLocks

namespace RowLocks

namespace Store

variable {ι κ ρ : Type*}

/-- The transaction holds nothing. -/
def Quiet (s : Store ι κ ρ) (i : ι) : Prop := ∀ k row, s.locks k ≠ some (i, row)

/-- Rows are inserted and neither updated nor deleted. -/
def InsertOnly (s : Store ι κ ρ) : Prop := ∀ k i row, s.locks k = some (i, row) → s.committed k = none

theorem quiet_idle {rows : κ → Option ρ} {i : ι} : (idle rows : Store ι κ ρ).Quiet i := by
  intro k row h
  cases h

theorem insertOnly_idle {rows : κ → Option ρ} : (idle rows : Store ι κ ρ).InsertOnly := by
  intro k i row h
  cases h

section Owners

variable [DecidableEq ι]

/-- The row that the transaction would commit under a key that it holds. -/
def held (s : Store ι κ ρ) (i : ι) (k : κ) : Option ρ :=
  (s.locks k).bind fun lock => if lock.1 = i then lock.2 else none

/-- What a statement of transaction `i` leaves as it was. -/
structure Step (i : ι) (s t : Store ι κ ρ) : Prop where
  others : ∀ k j row, j ≠ i → (t.locks k = some (j, row) ↔ s.locks k = some (j, row))
  committed : t.committed = s.committed ∨ t = s.commit i

/-- A step on a table that is only inserted into. -/
structure Inserting (i : ι) (s t : Store ι κ ρ) : Prop extends Step i s t where
  only : s.InsertOnly → t.InsertOnly

variable {s t : Store ι κ ρ} {i j : ι} {k : κ} {row : ρ}

theorem Quiet.commit_committed (quiet : s.Quiet i) : (s.commit i).committed = s.committed :=
  funext fun k => view_of_unheld (quiet k)

theorem quiet_commit : (s.commit i).Quiet i := fun _ _ h => (release_eq_some_iff.mp h).2 rfl

theorem quiet_rollback : (s.rollback i).Quiet i := fun _ _ h => (release_eq_some_iff.mp h).2 rfl

theorem held_eq_some_iff : s.held i k = some row ↔ s.locks k = some (i, some row) := by
  unfold Store.held
  cases hl : s.locks k with
  | none => simp
  | some lock =>
    obtain ⟨j, kept⟩ := lock
    by_cases hj : j = i
    · simp [hj]
    · simp [hj]

theorem view_of_held_row (h : s.held i k = some row) : s.view i k = some row :=
  view_of_held (held_eq_some_iff.mp h)

theorem Step.refl : Step i s s := ⟨fun _ _ _ _ => Iff.rfl, Or.inl rfl⟩

theorem Step.trans_quietly {u : Store ι κ ρ} (h : Step i s t) (hc : t.committed = s.committed)
    (h' : Step i t u) (hc' : u.committed = t.committed) : Step i s u :=
  ⟨fun k j row hj => (h'.others k j row hj).trans (h.others k j row hj), Or.inl (hc'.trans hc)⟩

theorem Step.quiet (h : Step i s t) (hj : j ≠ i) (quiet : s.Quiet j) : t.Quiet j :=
  fun k row hl => quiet k row ((h.others k j row hj).mp hl)

theorem Step.held (h : Step i s t) (hj : j ≠ i) : t.held j k = s.held j k := by
  apply Option.ext
  intro row
  rw [held_eq_some_iff, held_eq_some_iff]
  exact h.others k j (some row) hj

theorem Step.release {committed : κ → Option ρ}
    (h : committed = s.committed ∨ (⟨committed, s.release i⟩ : Store ι κ ρ) = s.commit i) :
    Step i s ⟨committed, s.release i⟩ := by
  refine ⟨fun k j row hj => ?_, h⟩
  show s.release i k = some (j, row) ↔ _
  rw [release_eq_some_iff]
  exact ⟨fun h => h.1, fun h => ⟨h, hj⟩⟩

theorem Step.commit : Step i s (s.commit i) := Step.release (Or.inr rfl)

theorem Step.rollback : Step i s (s.rollback i) := Step.release (Or.inl rfl)

theorem InsertOnly.committed_of_view (only : s.InsertOnly)
    (hv : s.view i k = none) : s.committed k = none := by
  cases hl : s.locks k with
  | none => rwa [view_of_unheld (by simp [hl])] at hv
  | some lock => exact only k lock.1 lock.2 hl

theorem InsertOnly.release_committed (only : s.InsertOnly) {committed : κ → Option ρ}
    (h : ∀ k, committed k = s.committed k ∨ committed k = s.view i k) :
    (⟨committed, s.release i⟩ : Store ι κ ρ).InsertOnly := by
  intro k j row hl
  obtain ⟨hl, hj⟩ := release_eq_some_iff.mp hl
  have before := only k j row hl
  rcases h k with same | seen
  · exact same.trans before
  · refine seen.trans ((view_of_unheld ?_).trans before)
    intro row' hl'
    exact hj (Prod.mk.inj (Option.some.inj (hl.symm.trans hl'))).1

theorem Inserting.refl : Inserting i s s := ⟨Step.refl, id⟩

theorem Inserting.commit : Inserting i s (s.commit i) :=
  ⟨Step.commit, fun only => only.release_committed fun _ => Or.inr rfl⟩

theorem Inserting.rollback : Inserting i s (s.rollback i) :=
  ⟨Step.rollback, fun only => only.release_committed fun _ => Or.inl rfl⟩

/-- A committed row of an insert-only table stays. -/
theorem Inserting.grows (h : Inserting i s t) (only : s.InsertOnly) (hk : s.committed k = some row) :
    t.committed k = some row := by
  rcases h.committed with same | rfl
  · rw [same]
    exact hk
  · refine (view_of_unheld ?_).trans hk
    intro row' hl
    rw [only k i row' hl] at hk
    cases hk

/-- A row that appears was held by the transaction that takes the step. -/
theorem Step.appears (h : Step i s t) (hk : t.committed k = some row) :
    s.committed k = some row ∨ s.held i k = some row ∧ t = s.commit i := by
  rcases h.committed with same | rfl
  · rw [same] at hk
    exact Or.inl hk
  · by_cases hl : ∃ row', s.locks k = some (i, row')
    · obtain ⟨row', hl⟩ := hl
      have seen : s.view i k = row' := view_of_held hl
      have eq : row' = some row := seen.symm.trans hk
      rw [eq] at hl
      exact Or.inr ⟨held_eq_some_iff.mpr hl, rfl⟩
    · have unheld : s.view i k = s.committed k := view_of_unheld fun row' h => hl ⟨row', h⟩
      exact Or.inl (unheld.symm.trans hk)

end Owners

section Keys

variable [DecidableEq κ]

def deleteAll (s : Store ι κ ρ) (i : ι) (rows : List κ) : Store ι κ ρ :=
  { s with locks := fun k => if k ∈ rows then some (i, none) else s.locks k }

/-- What a savepoint rollback does to a row that was inserted after it. -/
def undo (s : Store ι κ ρ) (k : κ) : Store ι κ ρ :=
  { s with locks := Function.update s.locks k none }

variable {s : Store ι κ ρ} {i : ι} {k : κ} {kept : Option ρ}

theorem Quiet.hold_iff (quiet : s.Quiet i) {k' : κ} {row' : Option ρ} :
    (s.hold i k kept).locks k' = some (i, row') ↔ k' = k ∧ row' = kept := by
  by_cases hk : k' = k
  · subst hk
    rw [hold_locks_self]
    simp [eq_comm]
  · rw [hold_locks_of_ne hk]
    simp [hk, quiet k' row']

/-- Undoing the only row that the transaction holds. -/
theorem quiet_undo (h : ∀ k' row, s.locks k' = some (i, row) → k' = k) : (s.undo k).Quiet i := by
  intro k' row hl
  by_cases hk : k' = k
  · subst hk
    have gone : (s.undo k').locks k' = none := Function.update_self ..
    rw [gone] at hl
    cases hl
  · have other : (s.undo k).locks k' = s.locks k' := Function.update_of_ne hk ..
    rw [other] at hl
    exact hk (h k' row hl)

end Keys

section Inserts

variable [DecidableEq ι] [DecidableEq κ]

/-- `INSERT` under a unique key; `none` while another transaction holds the key,
and when it is taken. -/
def insert (s : Store ι κ ρ) (i : ι) (k : κ) (row : ρ) : Option (Store ι κ ρ) :=
  if s.free i k = true ∧ s.view i k = none then some (s.hold i k (some row)) else none

def insertAll (s : Store ι κ ρ) (i : ι) (key : ρ → κ) : List ρ → Option (Store ι κ ρ)
  | [] => some s
  | row :: rest => (s.insert i (key row) row).bind fun s => s.insertAll i key rest

variable {s t : Store ι κ ρ} {i : ι} {k : κ} {row : ρ} {kept : Option ρ} {key : ρ → κ}
variable {rows : List ρ} {keys : List κ}

theorem insert_eq_some_iff :
    s.insert i k row = some t ↔
      (s.free i k = true ∧ s.view i k = none) ∧ s.hold i k (some row) = t := by
  simp [insert]

omit [DecidableEq κ] in
/-- Whatever the transaction does to its own locks, a key that nobody else holds
stays so. -/
theorem Step.free (step : Step i s t) (h : s.free i k = true) : t.free i k = true := by
  cases hl : t.locks k with
  | none => simp [Store.free, hl]
  | some lock =>
    obtain ⟨j, kept⟩ := lock
    have own : j = i := by
      by_contra other
      exact other (eq_of_free h ((step.others k j kept other).mp hl))
    simp [Store.free, hl, own]

theorem Step.hold (hf : s.free i k = true) : Step i s (s.hold i k kept) := by
  refine ⟨fun k' j row hj => ?_, Or.inl rfl⟩
  by_cases hk : k' = k
  · subst hk
    rw [hold_locks_self]
    constructor
    · intro h
      exact absurd (Prod.mk.inj (Option.some.inj h)).1.symm hj
    · intro h
      exact absurd (eq_of_free hf h) hj
  · rw [hold_locks_of_ne hk]

theorem Step.writeAll {f : ρ → ρ} (free : ∀ k ∈ keys, s.free i k = true) :
    Step i s (s.writeAll i keys f) := by
  refine ⟨fun k j row hj => ?_, Or.inl rfl⟩
  by_cases hk : k ∈ keys
  · rw [writeAll_locks_of_mem hk]
    constructor
    · intro h
      exact absurd (Prod.mk.inj (Option.some.inj h)).1.symm hj
    · intro h
      exact absurd (eq_of_free (free k hk) h) hj
  · rw [writeAll_locks_of_not_mem hk]

theorem Step.deleteAll (free : ∀ k ∈ keys, s.free i k = true) : Step i s (s.deleteAll i keys) := by
  refine ⟨fun k j row hj => ?_, Or.inl rfl⟩
  by_cases hk : k ∈ keys
  · have held : (s.deleteAll i keys).locks k = some (i, none) := if_pos hk
    rw [held]
    constructor
    · intro h
      exact absurd (Prod.mk.inj (Option.some.inj h)).1.symm hj
    · intro h
      exact absurd (eq_of_free (free k hk) h) hj
  · have other : (s.deleteAll i keys).locks k = s.locks k := if_neg hk
    rw [other]

theorem Step.undo (h : s.locks k = some (i, kept)) : Step i s (s.undo k) := by
  refine ⟨fun k' j row hj => ?_, Or.inl rfl⟩
  by_cases hk : k' = k
  · subst hk
    have gone : (s.undo k').locks k' = none := Function.update_self ..
    rw [gone, h]
    constructor
    · intro h
      cases h
    · intro h
      exact absurd (Prod.mk.inj (Option.some.inj h)).1.symm hj
  · have other : (s.undo k).locks k' = s.locks k' := Function.update_of_ne hk ..
    rw [other]

theorem InsertOnly.insert (only : s.InsertOnly) (h : s.insert i k row = some t) : t.InsertOnly := by
  obtain ⟨⟨_, hv⟩, rfl⟩ := insert_eq_some_iff.mp h
  intro k' j kept hl
  by_cases hk : k' = k
  · subst hk
    exact only.committed_of_view hv
  · rw [hold_locks_of_ne hk] at hl
    exact only k' j kept hl

theorem Inserting.insert (h : s.insert i k row = some t) : Inserting i s t := by
  obtain ⟨⟨hf, _⟩, rfl⟩ := insert_eq_some_iff.mp h
  exact ⟨Step.hold hf, fun only => only.insert h⟩

theorem Inserting.undo (h : s.locks k = some (i, kept)) : Inserting i s (s.undo k) := by
  refine ⟨Step.undo h, fun only k' j row hl => ?_⟩
  by_cases hk : k' = k
  · subst hk
    exact only k' i kept h
  · have other : (s.undo k).locks k' = s.locks k' := Function.update_of_ne hk ..
    rw [other] at hl
    exact only k' j row hl

theorem insert_committed (h : s.insert i k row = some t) : t.committed = s.committed := by
  obtain ⟨_, rfl⟩ := insert_eq_some_iff.mp h
  rfl

theorem insertAll_committed (h : s.insertAll i key rows = some t) : t.committed = s.committed := by
  induction rows generalizing s with
  | nil =>
    cases Option.some.inj h
    rfl
  | cons row rest ih =>
    obtain ⟨m, hm, hr⟩ := Option.bind_eq_some_iff.mp h
    exact (ih hr).trans (insert_committed hm)

theorem Inserting.insertAll (h : s.insertAll i key rows = some t) : Inserting i s t := by
  induction rows generalizing s with
  | nil =>
    cases Option.some.inj h
    exact Inserting.refl
  | cons row rest ih =>
    obtain ⟨m, hm, hr⟩ := Option.bind_eq_some_iff.mp h
    have first := Inserting.insert hm
    have later := ih hr
    have same : m.committed = s.committed := insert_committed hm
    exact ⟨first.toStep.trans_quietly same later.toStep (insertAll_committed hr),
      fun only => later.only (first.only only)⟩

/-- Later inserts leave what the transaction holds. -/
theorem insertAll_keeps (h : s.insertAll i key rows = some t) (hk : s.held i k = some row) :
    t.held i k = some row := by
  induction rows generalizing s with
  | nil =>
    cases Option.some.inj h
    exact hk
  | cons next rest ih =>
    obtain ⟨m, hm, hr⟩ := Option.bind_eq_some_iff.mp h
    obtain ⟨⟨_, hv⟩, rfl⟩ := insert_eq_some_iff.mp hm
    apply ih hr
    have hne : k ≠ key next := by
      rintro rfl
      rw [view_of_held_row hk] at hv
      cases hv
    rw [held_eq_some_iff, hold_locks_of_ne hne]
    exact held_eq_some_iff.mp hk

theorem insertAll_held (h : s.insertAll i key rows = some t) (hr : row ∈ rows) :
    t.held i (key row) = some row := by
  induction rows generalizing s with
  | nil => cases hr
  | cons next rest ih =>
    obtain ⟨m, hm, hrest⟩ := Option.bind_eq_some_iff.mp h
    rcases List.mem_cons.mp hr with rfl | hr
    · obtain ⟨_, rfl⟩ := insert_eq_some_iff.mp hm
      exact insertAll_keeps hrest (held_eq_some_iff.mpr hold_locks_self)
    · exact ih hrest hr

/-- What the transaction reads after its inserts. -/
theorem insertAll_view (h : s.insertAll i key rows = some t) :
    t.view i k = (s.view i k).or (rows.find? fun row => decide (key row = k)) := by
  induction rows generalizing s with
  | nil =>
    cases Option.some.inj h
    simp
  | cons row rest ih =>
    obtain ⟨m, hm, hr⟩ := Option.bind_eq_some_iff.mp h
    obtain ⟨⟨_, hv⟩, rfl⟩ := insert_eq_some_iff.mp hm
    rw [ih hr]
    by_cases hk : k = key row
    · subst hk
      simp [view_hold_self, hv]
    · rw [view_hold_of_ne hk, List.find?_cons_of_neg (by simpa [eq_comm] using hk)]

/-- A transaction can insert unused keys that nobody else holds. -/
theorem insertAll_of_free (free : ∀ row ∈ rows, s.free i (key row) = true)
    (nodup : (rows.map key).Nodup) (unused : ∀ row ∈ rows, s.view i (key row) = none) :
    ∃ t, s.insertAll i key rows = some t := by
  induction rows generalizing s with
  | nil => exact ⟨s, rfl⟩
  | cons row rest ih =>
    obtain ⟨fresh, nodup⟩ := List.nodup_cons.mp nodup
    obtain ⟨first, later⟩ := List.forall_mem_cons.mp unused
    obtain ⟨firstFree, laterFree⟩ := List.forall_mem_cons.mp free
    have inserted : s.insert i (key row) row = some (s.hold i (key row) (some row)) :=
      insert_eq_some_iff.mpr ⟨⟨firstFree, first⟩, rfl⟩
    have apart : ∀ row' ∈ rest, key row' ≠ key row := by
      intro row' hr same
      exact fresh (same ▸ List.mem_map_of_mem hr)
    obtain ⟨t, ht⟩ := @ih (s.hold i (key row) (some row))
      (fun row' hr => (Step.hold firstFree).free (laterFree row' hr)) nodup (fun row' hr => by
        rw [view_hold_of_ne (apart row' hr)]
        exact later row' hr)
    refine ⟨t, ?_⟩
    rw [insertAll, inserted]
    exact ht

/-- A transaction that is alone can insert unused keys. -/
theorem insertAll_of_alone (alone : ∀ k, s.free i k = true) (nodup : (rows.map key).Nodup)
    (unused : ∀ row ∈ rows, s.view i (key row) = none) :
    ∃ t, s.insertAll i key rows = some t ∧ ∀ k, t.free i k = true := by
  obtain ⟨t, ht⟩ := insertAll_of_free (fun row _ => alone (key row)) nodup unused
  exact ⟨t, ht, fun k => (Inserting.insertAll ht).toStep.free (alone k)⟩

/-- The keys that the inserts lock, for a transaction that has deleted nothing. -/
theorem insertAll_locks (h : s.insertAll i key rows = some t)
    (kept_some : ∀ k, s.locks k ≠ some (i, none)) :
    t.locks k = some (i, kept) ↔
      s.locks k = some (i, kept) ∨ ∃ row ∈ rows, key row = k ∧ kept = some row := by
  induction rows generalizing s with
  | nil =>
    cases Option.some.inj h
    simp
  | cons row rest ih =>
    obtain ⟨m, hm, hr⟩ := Option.bind_eq_some_iff.mp h
    obtain ⟨⟨_, hv⟩, rfl⟩ := insert_eq_some_iff.mp hm
    have unheld : ∀ kept, s.locks (key row) ≠ some (i, kept) := by
      intro kept hl
      rw [view_of_held hl] at hv
      exact kept_some (key row) (hv ▸ hl)
    have later : ∀ k, (s.hold i (key row) (some row)).locks k ≠ some (i, none) := by
      intro k
      by_cases hk : k = key row
      · subst hk
        rw [hold_locks_self]
        simp
      · rw [hold_locks_of_ne hk]
        exact kept_some k
    rw [ih hr later]
    by_cases hk : k = key row
    · subst hk
      rw [hold_locks_self]
      simp [unheld kept, eq_comm]
    · rw [hold_locks_of_ne hk]
      simp [Ne.symm hk]

end Inserts

end Store

end RowLocks
