import Mathlib.Data.List.Sort
import Mathlib.Data.List.Nodup

namespace OrderedSelection

variable {ρ β : Type*} [LinearOrder β] (key : ρ → β)

/-- `SELECT ... WHERE p ORDER BY key LIMIT limit` over a list of rows. -/
def select (p : ρ → Bool) (limit : Nat) (rows : List ρ) : List ρ :=
  ((rows.filter p).insertionSort (fun a b => key a ≤ key b)).take limit

/-- The number of qualifying rows ordered strictly before a row. -/
def rank (p : ρ → Bool) (rows : List ρ) (r : ρ) : Nat :=
  rows.countP (fun a => p a && decide (key a < key r))

variable {key} {p : ρ → Bool} {limit : Nat} {rows : List ρ} {r : ρ}

theorem mem_select (h : r ∈ select key p limit rows) : r ∈ rows ∧ p r = true := by
  have hs := (List.perm_insertionSort _ _).mem_iff.mp (List.mem_of_mem_take h)
  exact List.mem_filter.mp hs

theorem select_length_le (key : ρ → β) (p : ρ → Bool) (limit : Nat) (rows : List ρ) :
    (select key p limit rows).length ≤ limit := by
  simp [select]

theorem select_length (key : ρ → β) (p : ρ → Bool) (limit : Nat) (rows : List ρ) :
    (select key p limit rows).length = min limit (rows.countP p) := by
  rw [select, List.length_take, List.length_insertionSort, List.countP_eq_length_filter]

theorem select_sublist_nodup {κ : Type*} {id : ρ → κ} (h : (rows.map id).Nodup) :
    ((select key p limit rows).map id).Nodup := by
  have hf : ((rows.filter p).map id).Nodup := h.sublist (List.filter_sublist.map id)
  have hs := ((List.perm_insertionSort (fun a b => key a ≤ key b) (rows.filter p)).map id).nodup_iff.mpr hf
  exact hs.sublist ((List.take_sublist _ _).map id)

/-- In a strictly increasing list an entry's index counts the entries below it. -/
theorem countP_below_eq_index {xs : List ρ} (hs : xs.Pairwise (fun a b => key a < key b))
    {i : Nat} (hi : xs[i]? = some r) : xs.countP (fun a => decide (key a < key r)) = i := by
  induction xs generalizing i with
  | nil => simp at hi
  | cons x xs ih =>
    obtain ⟨hx, hxs⟩ := List.pairwise_cons.mp hs
    cases i with
    | zero =>
      have hr : x = r := by simpa using hi
      subst hr
      have none_below : ∀ a ∈ xs, ¬ key a < key x := fun a ha => not_lt_of_gt (hx a ha)
      simp only [List.countP_cons, lt_irrefl, decide_false, Bool.false_eq_true, if_false]
      exact List.countP_eq_zero.mpr (by simpa using none_below)
    | succ i =>
      have hi' : xs[i]? = some r := by simpa using hi
      have hlt : key x < key r := hx r (List.mem_of_getElem? hi')
      simp [hlt, ih hxs hi']

theorem sorted_strict (h : (rows.map key).Nodup) :
    ((rows.filter p).insertionSort (fun a b => key a ≤ key b)).Pairwise (fun a b => key a < key b) := by
  have le := List.pairwise_insertionSort (fun a b => key a ≤ key b) (rows.filter p)
  have ne : ((rows.filter p).insertionSort (fun a b => key a ≤ key b)).Pairwise
      (fun a b => key a ≠ key b) := by
    have hp := (List.perm_insertionSort (fun a b => key a ≤ key b) (rows.filter p)).map key
    exact List.pairwise_map.mp (hp.nodup_iff.mpr (h.sublist (List.filter_sublist.map key)))
  exact le.imp₂ (fun a b hle hne => lt_of_le_of_ne hle hne) ne

/-- The limit cuts by rank: a qualifying row is selected exactly when fewer
than `limit` qualifying rows come before it. -/
theorem mem_select_iff_rank (h : (rows.map key).Nodup) (hr : r ∈ rows) (hp : p r = true) :
    r ∈ select key p limit rows ↔ rank key p rows r < limit := by
  have hperm := List.perm_insertionSort (fun a b => key a ≤ key b) (rows.filter p)
  have hmem := hperm.mem_iff.mpr (List.mem_filter.mpr ⟨hr, hp⟩)
  obtain ⟨i, hi⟩ := List.mem_iff_getElem?.mp hmem
  have hrank : rank key p rows r = i := by
    have hc := countP_below_eq_index (sorted_strict h) hi
    rw [hperm.countP_eq, List.countP_filter] at hc
    rw [← hc]
    exact List.countP_congr (by simp [and_comm])
  rw [hrank]
  constructor
  · intro hs
    obtain ⟨j, hj⟩ := List.mem_iff_getElem?.mp hs
    have hjl : j < limit := by
      have hb := (List.getElem?_eq_some_iff.mp hj).1
      simp only [select, List.length_take] at hb
      omega
    have hj' : ((rows.filter p).insertionSort (fun a b => key a ≤ key b))[j]? = some r := by
      rw [select, List.getElem?_take_of_lt hjl] at hj
      exact hj
    have := countP_below_eq_index (sorted_strict h) hi
    have := countP_below_eq_index (sorted_strict h) hj'
    omega
  · intro hil
    apply List.mem_of_getElem? (i := i)
    rw [select, List.getElem?_take_of_lt hil]
    exact hi

/-- A batch is empty only when nothing qualifies. -/
theorem select_ne_nil (positive : 0 < limit) (hr : r ∈ rows) (hp : p r = true) :
    select key p limit rows ≠ [] := by
  have hmem : r ∈ (rows.filter p).insertionSort (fun a b => key a ≤ key b) :=
    (List.perm_insertionSort _ _).mem_iff.mpr (List.mem_filter.mpr ⟨hr, hp⟩)
  unfold select
  rw [Ne, List.take_eq_nil_iff, not_or]
  exact ⟨by omega, List.ne_nil_of_mem hmem⟩

theorem countP_lt_of_imp {q : ρ → Bool} (imp : ∀ r ∈ rows, q r = true → p r = true)
    (lost : ∃ r ∈ rows, p r = true ∧ q r = false) : rows.countP q < rows.countP p := by
  induction rows with
  | nil => simp at lost
  | cons x rest ih =>
    obtain ⟨head, tail⟩ := List.forall_mem_cons.mp imp
    have below := List.countP_mono_left tail
    obtain ⟨r, hr, hp, hq⟩ := lost
    rw [List.countP_cons, List.countP_cons]
    rcases List.mem_cons.mp hr with rfl | hr
    · simp only [hp, hq, if_true, Bool.false_eq_true, if_false]
      omega
    · have less := ih tail ⟨r, hr, hp, hq⟩
      by_cases hx : q x = true
      · rw [if_pos hx, if_pos (head hx)]
        omega
      · rw [if_neg hx]
        split <;> omega

/-- Rewriting a batch so that its rows no longer count lowers the count. -/
theorem countP_rewrite_lt [DecidableEq ρ] {selected : List ρ} {f : ρ → ρ} {q : ρ → Bool}
    (leave : ∀ r ∈ selected, r ∈ rows ∧ q r = true ∧ q (f r) = false) (some : selected ≠ []) :
    (rows.map fun r => if r ∈ selected then f r else r).countP q < rows.countP q := by
  rw [List.countP_map]
  apply countP_lt_of_imp
  · intro r _ hq
    by_cases hs : r ∈ selected
    · simp [hs, (leave r hs).2.2] at hq
    · simpa [hs] using hq
  · obtain ⟨r, hr⟩ := List.exists_mem_of_ne_nil selected some
    obtain ⟨hm, before, after⟩ := leave r hr
    exact ⟨r, hm, before, by simp [hr, after]⟩

section Batches

variable {order : List ρ}

/-- The selection takes from the front of the qualifying rows in their order. -/
theorem select_eq_take (perm : order.Perm (rows.filter p)) (sorted : order.Pairwise fun a b => key a < key b)
    (limit : Nat) : select key p limit rows = order.take limit := by
  have sorts := List.perm_insertionSort (fun a b => key a ≤ key b) (rows.filter p)
  have same : (rows.filter p).insertionSort (fun a b => key a ≤ key b) = order := by
    refine (sorts.trans perm.symm).eq_of_pairwise ?_ (List.pairwise_insertionSort _ _)
      (sorted.imp fun less => less.le)
    intro a b ha hb first second
    have distinct : (order.map key).Nodup := by
      rw [List.nodup_iff_pairwise_ne, List.pairwise_map]
      exact sorted.imp fun less => less.ne
    have inOrder : a ∈ order := perm.mem_iff.mpr (sorts.mem_iff.mp ha)
    exact List.inj_on_of_nodup_map distinct inOrder hb (le_antisymm first second)
  rw [select, same]

variable [DecidableEq ρ]

theorem filter_rewritten {selected : List ρ} {f : ρ → ρ} (leave : ∀ r ∈ selected, p (f r) = false) :
    (rows.map fun r => if r ∈ selected then f r else r).filter p =
      (rows.filter p).filter fun r => decide (r ∉ selected) := by
  induction rows with
  | nil => rfl
  | cons r rest ih =>
    rw [List.map_cons]
    by_cases taken : r ∈ selected
    · rw [if_pos taken, List.filter_cons_of_neg (by simp [leave r taken]), ih]
      by_cases hp : p r
      · rw [List.filter_cons_of_pos hp, List.filter_cons_of_neg (by simpa using taken)]
      · rw [List.filter_cons_of_neg hp]
    · rw [if_neg taken]
      by_cases hp : p r
      · rw [List.filter_cons_of_pos hp, List.filter_cons_of_pos hp,
          List.filter_cons_of_pos (by simpa using taken), ih]
      · rw [List.filter_cons_of_neg hp, List.filter_cons_of_neg hp, ih]

theorem filter_not_taken (distinct : order.Nodup) (limit : Nat) :
    order.filter (fun r => decide (r ∉ order.take limit)) = order.drop limit := by
  have halves := List.take_append_drop limit order
  have apart : List.Disjoint (order.take limit) (order.drop limit) := by
    rw [← halves] at distinct
    exact List.disjoint_of_nodup_append distinct
  have first : (order.take limit).filter (fun r => decide (r ∉ order.take limit)) = [] := by
    rw [List.filter_eq_nil_iff]
    intro r taken
    simpa using taken
  have second : (order.drop limit).filter (fun r => decide (r ∉ order.take limit)) = order.drop limit := by
    rw [List.filter_eq_self]
    intro r left
    simpa using fun taken => apart taken left
  conv_lhs => rw [← halves]
  rw [List.filter_append, halves, first, second, List.nil_append]

/-- Once a batch no longer qualifies, the next one takes up where it ended. -/
theorem select_after {f : ρ → ρ} (perm : order.Perm (rows.filter p))
    (sorted : order.Pairwise fun a b => key a < key b) {limit : Nat}
    (leave : ∀ r ∈ order.take limit, p (f r) = false) (next : Nat) :
    select key p next (rows.map fun r => if r ∈ order.take limit then f r else r) =
      (order.drop limit).take next := by
  have distinct : order.Nodup := sorted.imp fun {a b} less same => by
    rw [same] at less
    exact lt_irrefl _ less
  refine select_eq_take ?_ (sorted.sublist (List.drop_sublist limit order)) next
  rw [filter_rewritten leave, ← filter_not_taken distinct limit]
  exact perm.filter _

end Batches

end OrderedSelection
