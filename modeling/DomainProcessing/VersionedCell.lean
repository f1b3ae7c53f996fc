import DomainProcessing.Runs

namespace VersionedCell

open Runs

/-- Rows with a version counter that the store sets. -/
structure Versioning (ρ : Type*) where
  version : ρ → Int
  stamp : ρ → Int → ρ
  version_stamp : ∀ row v, version (stamp row v) = v

/-- What may happen to the cell that holds at most one row. -/
inductive CellOp (ρ : Type*)
  | idle
  | put (row : ρ) (expected : Int)
  | clear

variable {ρ : Type*} (V : Versioning ρ)

/-- Replace the row if it has the expected version, insert a first one if there
is none; otherwise the write is refused. -/
def put (row : ρ) (expected : Int) : Option ρ → Option ρ
  | none => some (V.stamp row 1)
  | some current =>
    if V.version current = expected then some (V.stamp row (expected + 1)) else none

def next (cell : Option ρ) : CellOp ρ → Option (Option ρ)
  | .idle => some cell
  | .put row expected => some ((put V row expected cell).or cell)
  | .clear => some none

def writes (cell : Option ρ) : CellOp ρ → Bool
  | .put row expected => (put V row expected cell).isSome
  | .idle | .clear => false

def deletes (cell : Option ρ) : CellOp ρ → Bool
  | .clear => cell.isSome
  | .idle | .put _ _ => false

/-- The stored version, 0 when nothing is stored. -/
def level : Option ρ → Int
  | none => 0
  | some row => V.version row

def writesIn (trace : List (Option ρ × CellOp ρ)) : Nat := trace.countP fun p => writes V p.1 p.2

def writesSinceClear : List (Option ρ × CellOp ρ) → Nat
  | [] => 0
  | (_, .clear) :: _ => 0
  | (cell, op) :: earlier => writesSinceClear earlier + if writes V cell op then 1 else 0

variable {V} {s t : Option ρ} {op : CellOp ρ} {trace : List (Option ρ × CellOp ρ)}

theorem put_eq_none_iff {row : ρ} {expected : Int} :
    put V row expected s = none ↔ ∃ current, s = some current ∧ V.version current ≠ expected := by
  cases s with
  | none => simp [put]
  | some current => simp [put]

/-- A step that deletes nothing raises the stored version by one exactly when it
writes. -/
theorem next_level (h : next V s op = some t) (kept : deletes s op = false) :
    level V t = level V s + (if writes V s op then 1 else 0) := by
  cases op with
  | idle =>
    cases Option.some.inj h
    simp [writes]
  | clear =>
    cases Option.some.inj h
    cases s with
    | none => simp [writes]
    | some row => simp [deletes] at kept
  | put row expected =>
    cases Option.some.inj h
    cases s with
    | none => simp [put, writes, level, V.version_stamp]
    | some current =>
      by_cases he : V.version current = expected
      · simp [put, writes, level, V.version_stamp, he]
      · simp [put, writes, level, he]

theorem next_isSome (h : next V s op = some t) (kept : deletes s op = false) (hs : s.isSome) :
    t.isSome := by
  cases op with
  | idle => exact Option.some.inj h ▸ hs
  | clear => 
    have empty : s = none := Option.not_isSome_iff_eq_none.mp (Bool.eq_false_iff.mp kept)
    simp [empty] at hs
  | put row expected =>
    cases Option.some.inj h
    simp [hs]

/-- While nothing is deleted the stored version counts the writes. -/
theorem level_of_undeleted (run : Run (next V) s trace t)
    (kept : ∀ p ∈ trace, deletes p.1 p.2 = false) :
    level V t = level V s + writesIn V trace := by
  induction run with
  | start => simp [writesIn]
  | step _ h ih =>
    obtain ⟨now, before⟩ := List.forall_mem_cons.mp kept
    rw [next_level h now, ih before, writesIn, writesIn, List.countP_cons]
    split <;> push_cast <;> omega

theorem isSome_of_undeleted (run : Run (next V) s trace t)
    (kept : ∀ p ∈ trace, deletes p.1 p.2 = false) (hs : s.isSome) : t.isSome := by
  induction run with
  | start => exact hs
  | step _ h ih =>
    obtain ⟨now, before⟩ := List.forall_mem_cons.mp kept
    exact next_isSome h now (ih before)

/-- While nothing is deleted, a write with the version read at the start
succeeds only if nothing has been written since. -/
theorem silent_of_put (run : Run (next V) s trace t) (kept : ∀ p ∈ trace, deletes p.1 p.2 = false)
    {row : ρ} (accepted : (put V row (level V s) t).isSome) : writesIn V trace = 0 := by
  have count := level_of_undeleted run kept
  cases t with
  | none =>
    cases s with
    | none =>
      simp only [level] at count
      omega
    | some r => simpa using isSome_of_undeleted run kept rfl
  | some current =>
    have same : V.version current = level V s := by
      by_contra hne
      simp [put, hne] at accepted
    simp only [level] at count same
    omega

/-- The stored version is the number of writes since the last clear. -/
theorem version_eq_writes (run : Run (next V) none trace t) :
    t.map V.version =
      if writesSinceClear V trace = 0 then none else some (writesSinceClear V trace : Int) := by
  induction run with
  | start => rfl
  | @step trace s op t run h ih =>
    cases op with
    | clear =>
      cases Option.some.inj h
      rfl
    | idle =>
      cases Option.some.inj h
      simpa [writesSinceClear, writes] using ih
    | put row expected =>
      cases Option.some.inj h
      cases s with
      | none =>
        have fresh : writesSinceClear V trace = 0 := by
          by_contra hne
          simp [hne] at ih
        simp [writesSinceClear, writes, put, fresh, V.version_stamp]
      | some current =>
        have counted : V.version current = writesSinceClear V trace ∧ writesSinceClear V trace ≠ 0 := by
          split at ih
          next => simp at ih
          next hne => exact ⟨Option.some.inj ih, hne⟩
        by_cases he : V.version current = expected
        · have grown : expected + 1 = ((writesSinceClear V trace + 1 : Nat) : Int) := by
            rw [← he, counted.1]
            rfl
          simp [writesSinceClear, writes, put, he, V.version_stamp, grown]
        · have refused : put V row expected (some current) = none := if_neg he
          simp [writesSinceClear, writes, refused, counted.1, counted.2]

/-- Between two replacements of the same expected version the row was deleted. -/
theorem deleted_between {row : ρ} {expected : Int} {t₁ : Option ρ}
    (first : next V s (.put row expected) = some t₁) (found : s.map V.version = some expected)
    (run : Run (next V) t₁ trace t) (again : t.map V.version = some expected) :
    ∃ p ∈ trace, deletes p.1 p.2 = true := by
  by_contra none
  have kept : ∀ p ∈ trace, deletes p.1 p.2 = false := by
    intro p hp
    by_contra hd
    exact none ⟨p, hp, Bool.not_eq_false _ ▸ hd⟩
  obtain ⟨current, rfl, hv⟩ := Option.map_eq_some_iff.mp found
  obtain ⟨last, rfl, hl⟩ := Option.map_eq_some_iff.mp again
  have start : level V t₁ = expected + 1 := by
    rw [next_level first rfl]
    simp [writes, put, hv, level]
  have count := level_of_undeleted run kept
  rw [start] at count
  simp only [level, hl] at count
  omega

/-- A write with the version read earlier follows no other write or deletion, if
it is accepted, exactly when nothing was deleted since or the writes since the
latest deletion number neither 0 nor that version. -/
theorem accepted_undisturbed_iff {earlier : List (Option ρ × CellOp ρ)} {row : ρ}
    (first : Run (next V) none earlier s) (run : Run (next V) s trace t) :
    ((put V row (level V s) t).isSome →
      ∀ p ∈ trace, writes V p.1 p.2 = false ∧ deletes p.1 p.2 = false) ↔
      (∀ p ∈ trace, deletes p.1 p.2 = false) ∨
        writesSinceClear V (trace ++ earlier) ≠ 0 ∧
          (writesSinceClear V (trace ++ earlier) : Int) ≠ level V s := by
  have counted := version_eq_writes (first.trans run)
  constructor
  · intro undisturbed
    rw [or_iff_not_imp_left]
    intro deleted
    have refused : put V row (level V s) t = none := by
      by_contra accepted
      exact deleted fun p hp => (undisturbed (Option.isSome_iff_ne_none.mpr accepted) p hp).2
    obtain ⟨current, rfl, hne⟩ := put_eq_none_iff.mp refused
    split at counted
    next => simp at counted
    next written =>
      have version := Option.some.inj counted
      exact ⟨written, fun he => hne (version.trans he)⟩
  · rintro (kept | ⟨written, hne⟩) accepted
    · have silent := silent_of_put run kept accepted
      rw [writesIn, List.countP_eq_zero] at silent
      exact fun p hp => ⟨by simpa using silent p hp, kept p hp⟩
    · rw [if_neg written] at counted
      obtain ⟨current, rfl, version⟩ := Option.map_eq_some_iff.mp counted
      have refused : put V row (level V s) (some current) = none :=
        put_eq_none_iff.mpr ⟨current, rfl, version ▸ hne⟩
      simp [refused] at accepted

end VersionedCell
