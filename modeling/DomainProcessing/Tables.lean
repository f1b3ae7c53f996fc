import Mathlib.Data.List.Nodup

namespace Tables

/-- A finite table whose rows carry pairwise distinct primary keys. -/
@[ext]
structure Table {ρ κ : Type*} (key : ρ → κ) where
  rows : List ρ
  nodup : (rows.map key).Nodup
  deriving DecidableEq

namespace Table

variable {ρ κ : Type*} {key : ρ → κ}

def empty : Table key := ⟨[], List.nodup_nil⟩

def get [DecidableEq κ] (t : Table key) (k : κ) : Option ρ := t.rows.find? (fun r => key r = k)

/-- Rewrite every row by a function that leaves the primary key alone. -/
def update (t : Table key) (f : ρ → ρ) (keep : ∀ r, key (f r) = key r) : Table key :=
  ⟨t.rows.map f, by simpa [Function.comp_def, keep] using t.nodup⟩

def set [DecidableEq κ] (t : Table key) (k : κ) (f : ρ → ρ) (keep : ∀ r, key (f r) = key r) :
    Table key :=
  t.update (fun r => if key r = k then f r else r) (fun r => by split <;> simp [keep])

/-- Insert rows; a primary-key violation inserts none of them. -/
def insert [DecidableEq κ] (t : Table key) (new : List ρ) : Option (Table key) :=
  if h : ((t.rows ++ new).map key).Nodup then some ⟨t.rows ++ new, h⟩ else none

def delete (t : Table key) (p : ρ → Bool) : Table key :=
  ⟨t.rows.filter (fun r => !p r), t.nodup.sublist (List.filter_sublist.map key)⟩

theorem eq_of_key {t : Table key} {r r' : ρ} (hr : r ∈ t.rows) (hr' : r' ∈ t.rows)
    (h : key r = key r') : r = r' :=
  List.inj_on_of_nodup_map t.nodup hr hr' h

theorem mem_update {t : Table key} {f : ρ → ρ} {keep : ∀ r, key (f r) = key r} {r : ρ} :
    r ∈ (t.update f keep).rows ↔ ∃ old ∈ t.rows, f old = r := List.mem_map

variable [DecidableEq κ]

theorem get_eq_some_iff {t : Table key} {k : κ} {r : ρ} :
    t.get k = some r ↔ r ∈ t.rows ∧ key r = k := by
  constructor
  · intro h
    exact ⟨List.mem_of_find?_eq_some h, by simpa using List.find?_some h⟩
  · rintro ⟨hr, rfl⟩
    cases hf : t.get (key r) with
    | none => simpa using List.find?_eq_none.mp hf r hr
    | some r' =>
      have hk : key r' = key r := by simpa using List.find?_some hf
      rw [eq_of_key (List.mem_of_find?_eq_some hf) hr hk]

theorem get_eq_none_iff {t : Table key} {k : κ} : t.get k = none ↔ k ∉ t.rows.map key := by
  simp [get, List.find?_eq_none]

theorem get_update (t : Table key) (f : ρ → ρ) (keep : ∀ r, key (f r) = key r) (k : κ) :
    (t.update f keep).get k = (t.get k).map f := by
  have same : (fun r => decide (key r = k)) ∘ f = fun r => decide (key r = k) := by
    funext r
    show decide (key (f r) = k) = decide (key r = k)
    rw [keep]
  unfold get update
  rw [List.find?_map, same]

theorem mem_set {t : Table key} {k : κ} {f : ρ → ρ} {keep : ∀ r, key (f r) = key r} {r : ρ} :
    r ∈ (t.set k f keep).rows ↔ ∃ old ∈ t.rows, (if key old = k then f old else old) = r :=
  mem_update

theorem get_set (t : Table key) (k k' : κ) (f : ρ → ρ) (keep : ∀ r, key (f r) = key r) :
    (t.set k f keep).get k' = if k' = k then (t.get k').map f else t.get k' := by
  rw [set, get_update]
  cases hg : t.get k' with
  | none => simp
  | some r =>
    have hk := (get_eq_some_iff.mp hg).2
    subst hk
    split <;> simp_all

theorem set_absent {t : Table key} {k : κ} (f : ρ → ρ) (keep : ∀ r, key (f r) = key r)
    (h : t.get k = none) : t.set k f keep = t := by
  apply Table.ext
  have other : ∀ r ∈ t.rows, (if key r = k then f r else r) = id r := by
    intro r hr
    apply if_neg
    rintro rfl
    exact get_eq_none_iff.mp h (List.mem_map_of_mem hr)
  exact (List.map_congr_left other).trans (List.map_id _)

theorem insert_rows {t t' : Table key} {new : List ρ} (h : t.insert new = some t') :
    t'.rows = t.rows ++ new := by
  unfold insert at h
  split at h
  next => cases Option.some.inj h; rfl
  next => simp at h

/-- An insertion succeeds exactly if it keeps the keys distinct. -/
theorem exists_insert_iff {t : Table key} {new : List ρ} :
    (∃ t', t.insert new = some t') ↔ ((t.rows ++ new).map key).Nodup := by
  constructor
  · rintro ⟨t', h⟩
    rw [← insert_rows h]
    exact t'.nodup
  · intro distinct
    exact ⟨_, dif_pos distinct⟩

/-- Rewriting all rows and the new ones does not change which keys are taken. -/
theorem insert_update (t : Table key) (new : List ρ) (f : ρ → ρ) (keep : ∀ r, key (f r) = key r) :
    (t.update f keep).insert (new.map f) = (t.insert new).map fun inserted => inserted.update f keep := by
  have keys : (((t.update f keep).rows ++ new.map f).map key) = (t.rows ++ new).map key := by
    show ((t.rows.map f ++ new.map f).map key) = _
    rw [← List.map_append, List.map_map]
    exact List.map_congr_left fun r _ => keep r
  unfold insert
  by_cases distinct : ((t.rows ++ new).map key).Nodup
  · rw [dif_pos distinct, dif_pos (keys.symm ▸ distinct)]
    exact congrArg some (Table.ext List.map_append.symm)
  · rw [dif_neg distinct, dif_neg (keys.symm ▸ distinct)]
    rfl

theorem set_update (t : Table key) (k : κ) {f g g' : ρ → ρ} (keep : ∀ r, key (f r) = key r)
    (keep_g : ∀ r, key (g r) = key r) (keep_g' : ∀ r, key (g' r) = key r) (h : ∀ r, f (g r) = g' (f r)) :
    (t.set k g keep_g).update f keep = (t.update f keep).set k g' keep_g' := by
  refine Table.ext ?_
  show (t.rows.map _).map f = (t.rows.map f).map _
  rw [List.map_map, List.map_map]
  refine List.map_congr_left fun r _ => ?_
  simp only [Function.comp_apply, keep]
  split
  · exact h r
  · rfl

/-- A row that an insertion accepted had an unused key. -/
theorem insert_fresh {t t' : Table key} {new : List ρ} (h : t.insert new = some t')
    {r : ρ} (hr : r ∈ new) : t.get (key r) = none := by
  have hn := t'.nodup
  rw [insert_rows h, List.map_append] at hn
  rw [get_eq_none_iff]
  intro hm
  exact List.disjoint_of_nodup_append hn hm (List.mem_map_of_mem hr)

/-- New rows with distinct unused keys can be inserted. -/
theorem exists_insert {t : Table key} {new : List ρ} (nodup : (new.map key).Nodup)
    (unused : ∀ r ∈ new, t.get (key r) = none) : ∃ t', t.insert new = some t' := by
  rw [exists_insert_iff, List.map_append]
  refine List.nodup_append.mpr ⟨t.nodup, nodup, ?_⟩
  rintro k hk k' hk' rfl
  obtain ⟨r, hr, rfl⟩ := List.mem_map.mp hk'
  exact get_eq_none_iff.mp (unused r hr) hk

theorem get_insert {t t' : Table key} {new : List ρ} (h : t.insert new = some t') (k : κ) :
    t'.get k = (t.get k).or (new.find? fun row => decide (key row = k)) := by
  simp only [get, insert_rows h, List.find?_append]

/-- Deleting by the primary key. -/
theorem get_delete (t : Table key) (p : κ → Bool) (k : κ) :
    (t.delete fun row => p (key row)).get k = if p k then none else t.get k := by
  by_cases hp : p k
  · rw [if_pos hp, get_eq_none_iff]
    intro hk
    obtain ⟨row, hrow, rfl⟩ := List.mem_map.mp hk
    simp [delete, hp] at hrow
  · rw [if_neg hp]
    cases hg : t.get k with
    | none =>
      rw [get_eq_none_iff] at hg ⊢
      intro hk
      obtain ⟨row, hrow, rfl⟩ := List.mem_map.mp hk
      exact hg (List.mem_map_of_mem (List.mem_filter.mp hrow).1)
    | some row =>
      obtain ⟨hm, rfl⟩ := get_eq_some_iff.mp hg
      exact get_eq_some_iff.mpr ⟨List.mem_filter.mpr ⟨hm, by simpa using hp⟩, rfl⟩

end Table

end Tables
