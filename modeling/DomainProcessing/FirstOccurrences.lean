import Mathlib.Data.List.Nodup

namespace FirstOccurrences

variable {α κ κ' : Type*} [DecidableEq κ] [DecidableEq κ']

/-- The entries whose keys are new, the first one of each key. -/
def firsts (key : α → κ) : List κ → List α → List α
  | _, [] => []
  | seen, x :: rest =>
    if key x ∈ seen then firsts key seen rest else x :: firsts key (key x :: seen) rest

variable {key : α → κ} {key' : α → κ'} {seen : List κ} {xs ys : List α}

theorem firsts_sublist : (firsts key seen xs).Sublist xs := by
  induction xs generalizing seen with
  | nil => exact List.Sublist.slnil
  | cons x rest ih =>
    rw [firsts]
    split
    next => exact ih.cons x
    next => exact ih.cons_cons x

/-- The keys are the new ones, without repetitions. -/
theorem firsts_keys [BEq κ] [LawfulBEq κ] : (firsts key seen xs).map key =
    ((xs.map key).filter fun k => decide (k ∉ seen)).eraseDups := by
  induction xs generalizing seen with
  | nil => rfl
  | cons x rest ih =>
    rw [firsts, List.map_cons]
    by_cases known : key x ∈ seen
    · rw [if_pos known, ih, List.filter_cons_of_neg (by simpa using known)]
    · have others : (rest.map key).filter (fun k => decide (k ∉ key x :: seen)) =
          ((rest.map key).filter fun k => decide (k ∉ seen)).filter fun k => !k == key x := by
        rw [List.filter_filter]
        refine List.filter_congr fun k _ => ?_
        rw [Bool.eq_iff_iff]
        simp
      rw [if_neg known, List.map_cons, ih, List.filter_cons_of_pos (by simpa using known), List.eraseDups_cons,
        others]

theorem firsts_new : ∀ x ∈ firsts key seen xs, key x ∉ seen := by
  intro x hx
  have listed := List.mem_map_of_mem (f := key) hx
  rw [firsts_keys, List.mem_eraseDups] at listed
  exact of_decide_eq_true (List.mem_filter.mp listed).2

theorem firsts_nodup : ((firsts key seen xs).map key).Nodup := by
  induction xs generalizing seen with
  | nil => exact List.nodup_nil
  | cons x rest ih =>
    rw [firsts]
    split
    next => exact ih
    next =>
      rw [List.map_cons, List.nodup_cons]
      refine ⟨?_, ih⟩
      intro again
      obtain ⟨y, hy, same⟩ := List.mem_map.mp again
      have new := firsts_new y hy
      rw [same] at new
      exact new List.mem_cons_self

theorem firsts_of_nodup (nodup : (xs.map key).Nodup) (new : ∀ x ∈ xs, key x ∉ seen) :
    firsts key seen xs = xs := by
  induction xs generalizing seen with
  | nil => rfl
  | cons x rest ih =>
    obtain ⟨unlike, nodup⟩ := List.nodup_cons.mp nodup
    obtain ⟨first, rests⟩ := List.forall_mem_cons.mp new
    have later : ∀ y ∈ rest, key y ∉ key x :: seen := by
      intro y hy again
      rcases List.mem_cons.mp again with same | known
      · exact unlike (List.mem_map.mpr ⟨y, hy, same⟩)
      · exact rests y hy known
    rw [firsts, if_neg first, ih nodup later]

theorem firsts_firsts : firsts key [] (firsts key [] xs) = firsts key [] xs :=
  firsts_of_nodup firsts_nodup fun _ _ => List.not_mem_nil

theorem firsts_prefix : firsts key seen xs <+: firsts key seen (xs ++ ys) := by
  induction xs generalizing seen with
  | nil => exact List.nil_prefix
  | cons x rest ih =>
    rw [List.cons_append, firsts, firsts]
    split
    next => exact ih
    next => exact List.cons_prefix_cons.mpr ⟨rfl, ih⟩

theorem firsts_map {f : α → α} (keep : ∀ x, key (f x) = key x) :
    firsts key seen (xs.map f) = (firsts key seen xs).map f := by
  induction xs generalizing seen with
  | nil => rfl
  | cons x rest ih =>
    rw [List.map_cons, firsts, firsts, keep]
    split
    next => exact ih
    next => rw [List.map_cons, ih]

/-- Keys that tell the same entries apart choose the same ones. -/
theorem firsts_congr (same : ∀ x y, key x = key y ↔ key' x = key' y) (done : List α) :
    firsts key (done.map key) xs = firsts key' (done.map key') xs := by
  induction xs generalizing done with
  | nil => rfl
  | cons x rest ih =>
    have known : key x ∈ done.map key ↔ key' x ∈ done.map key' := by
      rw [List.mem_map, List.mem_map]
      exact exists_congr fun y => and_congr_right fun _ => same y x
    have tails := ih (x :: done)
    rw [List.map_cons, List.map_cons] at tails
    rw [firsts, firsts, tails, ih]
    exact if_congr known rfl rfl

end FirstOccurrences
