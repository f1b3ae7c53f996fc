import Mathlib.Logic.Function.Basic

namespace RowLocks

/-- A table under READ COMMITTED: the last committed version of every row and,
for a locked row, the transaction that holds it with the version it would
commit. -/
structure Store (ι κ ρ : Type*) where
  committed : κ → Option ρ
  locks : κ → Option (ι × Option ρ)

namespace Store

variable {ι κ ρ : Type*}

def idle (rows : κ → Option ρ) : Store ι κ ρ := ⟨rows, fun _ => none⟩

section Holding

variable [DecidableEq κ]

def hold (s : Store ι κ ρ) (i : ι) (k : κ) (row : Option ρ) : Store ι κ ρ :=
  { s with locks := Function.update s.locks k (some (i, row)) }

variable {s : Store ι κ ρ} {i : ι} {k k' : κ} {row : Option ρ}

@[simp] theorem hold_committed : (s.hold i k row).committed = s.committed := rfl

theorem hold_locks_self : (s.hold i k row).locks k = some (i, row) := Function.update_self ..

theorem hold_locks_of_ne (h : k' ≠ k) : (s.hold i k row).locks k' = s.locks k' :=
  Function.update_of_ne h ..

end Holding

section Reading

variable [DecidableEq ι]

/-- What a statement of transaction `i` reads. -/
def view (s : Store ι κ ρ) (i : ι) (k : κ) : Option ρ :=
  match s.locks k with
  | none => s.committed k
  | some (j, row) => if j = i then row else s.committed k

/-- No other transaction holds the row. -/
def free (s : Store ι κ ρ) (i : ι) (k : κ) : Bool :=
  (s.locks k).all (fun lock => decide (lock.1 = i))

def release (s : Store ι κ ρ) (i : ι) (k : κ) : Option (ι × Option ρ) :=
  (s.locks k).filter (fun lock => decide (lock.1 ≠ i))

def commit (s : Store ι κ ρ) (i : ι) : Store ι κ ρ := ⟨s.view i, s.release i⟩

def rollback (s : Store ι κ ρ) (i : ι) : Store ι κ ρ := ⟨s.committed, s.release i⟩

variable {s : Store ι κ ρ} {i j : ι} {k : κ} {row : Option ρ}

@[simp] theorem commit_committed : (s.commit i).committed = s.view i := rfl

theorem view_of_held (h : s.locks k = some (i, row)) : s.view i k = row := by
  simp [view, h]

theorem view_of_unheld (h : ∀ row, s.locks k ≠ some (i, row)) : s.view i k = s.committed k := by
  unfold view
  cases hl : s.locks k with
  | none => rfl
  | some lock =>
    obtain ⟨j, row⟩ := lock
    have hne : j ≠ i := by
      rintro rfl
      exact h row hl
    exact if_neg hne

theorem eq_of_free (h : s.free i k = true) (hl : s.locks k = some (j, row)) : j = i := by
  simpa [free, hl] using h

theorem release_eq_some_iff : s.release i k = some (j, row) ↔ s.locks k = some (j, row) ∧ j ≠ i := by
  simp [release, Option.filter_eq_some_iff]

end Reading

variable [DecidableEq ι] [DecidableEq κ]

/-- `SELECT ... FOR UPDATE` of one row; `none` while it has to wait. -/
def lock (s : Store ι κ ρ) (i : ι) (k : κ) : Option (Store ι κ ρ) :=
  if s.free i k then some (s.hold i k (s.view i k)) else none

def write (s : Store ι κ ρ) (i : ι) (k : κ) (f : ρ → ρ) : Option (Store ι κ ρ) :=
  if s.free i k then some (s.hold i k ((s.view i k).map f)) else none

variable {s t : Store ι κ ρ} {i j : ι} {k k' : κ} {row : Option ρ} {f : ρ → ρ}

theorem lock_eq_some_iff : s.lock i k = some t ↔ s.free i k = true ∧ s.hold i k (s.view i k) = t := by
  simp [lock]

theorem write_eq_some_iff :
    s.write i k f = some t ↔ s.free i k = true ∧ s.hold i k ((s.view i k).map f) = t := by
  simp [write]

theorem view_hold_self : (s.hold i k row).view i k = row := view_of_held hold_locks_self

theorem view_hold_of_ne (h : k' ≠ k) : (s.hold i k row).view j k' = s.view j k' := by
  simp only [view, hold_locks_of_ne h, hold_committed]

/-- Holding a free row changes nothing that another transaction reads. -/
theorem view_hold_other (hf : s.free i k = true) (hj : j ≠ i) :
    (s.hold i k row).view j k' = s.view j k' := by
  by_cases hk : k' = k
  · subst hk
    have before : s.view j k' = s.committed k' :=
      view_of_unheld fun row hl => hj (eq_of_free hf hl)
    have after : (s.hold i k' row).view j k' = s.committed k' :=
      view_of_unheld fun row hl => by
        rw [hold_locks_self] at hl
        exact hj (Prod.mk.inj (Option.some.inj hl)).1.symm
    rw [before, after]
  · exact view_hold_of_ne hk

/-- Write a set of rows and keep them locked; `lockAll` leaves them as read. -/
def writeAll (s : Store ι κ ρ) (i : ι) (rows : List κ) (f : ρ → ρ) : Store ι κ ρ :=
  { s with locks := fun k => if k ∈ rows then some (i, (s.view i k).map f) else s.locks k }

def lockAll (s : Store ι κ ρ) (i : ι) (rows : List κ) : Store ι κ ρ := s.writeAll i rows id

variable {rows : List κ}

theorem writeAll_locks_of_mem (h : k ∈ rows) :
    (s.writeAll i rows f).locks k = some (i, (s.view i k).map f) := if_pos h

theorem writeAll_locks_of_not_mem (h : k ∉ rows) : (s.writeAll i rows f).locks k = s.locks k :=
  if_neg h

theorem lockAll_locks_of_mem (h : k ∈ rows) (unlocked : s.locks k = none) :
    (s.lockAll i rows).locks k = some (i, s.committed k) := by
  have read : s.view i k = s.committed k := view_of_unheld (by simp [unlocked])
  rw [lockAll, writeAll_locks_of_mem h, read, Option.map_id, id]

end Store

end RowLocks
