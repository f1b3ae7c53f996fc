import Mathlib.Data.List.Sort

namespace KeysetPaging

variable {β : Type*} [LinearOrder β]

/-- The entries of an ascending listing that come after the cursor. -/
def after (cursor : Option β) (listing : List β) : List β :=
  listing.filter fun k => cursor.all fun c => decide (c < k)

def page (listing : List β) (cursor : Option β) (limit : Nat) : List β :=
  (after cursor listing).take limit

/-- The last entry of the page, when more of them follow. -/
def next (listing : List β) (cursor : Option β) (limit : Nat) : Option β :=
  if limit < (after cursor listing).length then (page listing cursor limit).getLast? else none

/-- The pages that a reader gets who follows the cursors, with a limit of his
own for every request; `none` when the requests run out first. -/
def walk (listing : List β) (limits : Nat → Nat) : Nat → Nat → Option β → Option (List (List β))
  | 0, _, _ => none
  | requests + 1, i, cursor =>
    match next listing cursor (limits i) with
    | none => some [page listing cursor (limits i)]
    | some c =>
      (walk listing limits requests (i + 1) (some c)).map (page listing cursor (limits i) :: ·)

variable {listing : List β} {cursor : Option β} {limit : Nat} {c : β}

@[simp] theorem after_none : after none listing = listing := List.filter_eq_self.mpr (by simp)

theorem after_sorted (sorted : listing.Pairwise (· < ·)) :
    (after cursor listing).Pairwise (· < ·) := sorted.filter _

/-- What comes after an entry of an ascending listing is the rest of it. -/
theorem after_getElem (sorted : listing.Pairwise (· < ·)) {i : Nat} (hi : listing[i]? = some c) :
    after (some c) listing = listing.drop (i + 1) := by
  induction listing generalizing i with
  | nil => simp at hi
  | cons k rest ih =>
    obtain ⟨below, sorted⟩ := List.pairwise_cons.mp sorted
    cases i with
    | zero =>
      have same : k = c := by simpa using hi
      subst same
      have all : rest.filter (fun x => decide (k < x)) = rest :=
        List.filter_eq_self.mpr fun x hx => by simpa using below x hx
      simpa [after] using all
    | succ i =>
      have found : rest[i]? = some c := by simpa using hi
      have lower : k < c := below c (List.mem_of_getElem? found)
      have dropped : after (some c) (k :: rest) = after (some c) rest := by
        simp [after, lower.le]
      rw [dropped, ih sorted found, List.drop_succ_cons]

/-- Two cursors in a row are the later one. -/
theorem after_after {d : β} (h : cursor.all fun c => decide (c < d)) :
    after (some d) (after cursor listing) = after (some d) listing := by
  unfold after
  rw [List.filter_filter]
  apply List.filter_congr
  intro k _
  cases cursor with
  | none => simp
  | some c =>
    have lower : c < d := by simpa using h
    by_cases hk : d < k
    · simp [hk, lower.trans hk]
    · simp [hk]

/-- The cursor of a page leads to the entries that the page has left out. -/
theorem after_next (sorted : listing.Pairwise (· < ·)) (h : next listing cursor limit = some c) :
    after (some c) listing = (after cursor listing).drop limit := by
  unfold next at h
  split at h
  next more =>
    rw [page, List.getLast?_eq_getElem?, List.length_take_of_le more.le] at h
    have bound : limit - 1 < limit := by
      by_contra none_taken
      have empty : limit = 0 := by omega
      simp [empty] at h
    rw [List.getElem?_take_of_lt bound] at h
    have beyond : cursor.all fun d => decide (d < c) :=
      (List.mem_filter.mp (List.mem_of_getElem? h)).2
    rw [← after_after beyond, after_getElem (after_sorted sorted) h]
    congr 1
    omega
  next => cases h

theorem next_mem (h : next listing cursor limit = some c) : c ∈ listing := by
  unfold next at h
  split at h
  next => exact (List.mem_filter.mp (List.mem_of_mem_take (List.mem_of_getLast? h))).1
  next => cases h

theorem more_of_next (h : next listing cursor limit = some c) :
    limit < (after cursor listing).length := by
  unfold next at h
  split at h
  next more => exact more
  next => cases h

theorem length_page_of_next (h : next listing cursor limit = some c) :
    (page listing cursor limit).length = limit :=
  List.length_take_of_le (more_of_next h).le

theorem next_eq_none_iff_fits (positive : 0 < limit) :
    next listing cursor limit = none ↔ (after cursor listing).length ≤ limit := by
  unfold next
  split
  next more =>
    have filled : page listing cursor limit ≠ [] := by
      intro empty
      have := congrArg List.length empty
      rw [page, List.length_take_of_le more.le] at this
      simp only [List.length_nil] at this
      omega
    simp [filled, more]
  next rest => simpa using rest

theorem le_getLast (sorted : listing.Pairwise (· < ·)) {k last : β}
    (hl : listing.getLast? = some last) (hk : k ∈ listing) : k ≤ last := by
  obtain ⟨init, rfl⟩ := List.getLast?_eq_some_iff.mp hl
  rcases List.mem_append.mp hk with hk | hk
  · exact ((List.pairwise_append.mp sorted).2.2 k hk last (by simp)).le
  · exact (List.mem_singleton.mp hk).le

/-- Unless nothing comes after the cursor, the end of the listing does. -/
theorem getLast_after (sorted : listing.Pairwise (· < ·)) {last : β}
    (hl : (after cursor listing).getLast? = some last) : listing.getLast? = some last := by
  obtain ⟨kept, beyond⟩ := List.mem_filter.mp (List.mem_of_getLast? hl)
  cases hf : listing.getLast? with
  | none =>
    rw [List.getLast?_eq_none_iff.mp hf] at kept
    cases kept
  | some final =>
    have upper := le_getLast sorted hf kept
    have reached : final ∈ after cursor listing := by
      refine List.mem_filter.mpr ⟨List.mem_of_getLast? hf, ?_⟩
      cases cursor with
      | none => rfl
      | some c =>
        have low : c < last := by simpa using beyond
        simpa using low.trans_le upper
    rw [le_antisymm (le_getLast (after_sorted sorted) hl reached) upper]

/-- There is no further cursor exactly when the page is empty or holds the last
entry of the listing. -/
theorem next_eq_none_iff (sorted : listing.Pairwise (· < ·)) (positive : 0 < limit) :
    next listing cursor limit = none ↔
      page listing cursor limit = [] ∨
        ∃ last, listing.getLast? = some last ∧ last ∈ page listing cursor limit := by
  rw [next_eq_none_iff_fits positive]
  constructor
  · intro fits
    have whole : page listing cursor limit = after cursor listing := List.take_of_length_le fits
    rw [whole]
    cases hl : (after cursor listing).getLast? with
    | none => exact Or.inl (List.getLast?_eq_none_iff.mp hl)
    | some last => exact Or.inr ⟨last, getLast_after sorted hl, List.mem_of_getLast? hl⟩
  · rintro (empty | ⟨last, hl, shown⟩)
    · have := congrArg List.length empty
      simp only [page, List.length_take, List.length_nil] at this
      omega
    · obtain ⟨i, hi⟩ := List.mem_iff_getElem?.mp shown
      have bound : i < limit := by
        have := (List.getElem?_eq_some_iff.mp hi).1
        simp only [page, List.length_take] at this
        omega
      rw [page, List.getElem?_take_of_lt bound] at hi
      by_contra more
      have above : last < (after cursor listing)[i + 1] := by
        obtain ⟨hb, rfl⟩ := List.getElem?_eq_some_iff.mp hi
        exact List.pairwise_iff_getElem.mp (after_sorted sorted) i (i + 1) hb (by omega) (by omega)
      have member : (after cursor listing)[i + 1] ∈ after cursor listing := List.getElem_mem _
      exact above.not_ge (le_getLast sorted hl (List.mem_filter.mp member).1)

/-- A walk over an ascending listing shows what comes after its cursor, each
entry once and in order, on pages of which all but the last are full. -/
theorem walk_spec (sorted : listing.Pairwise (· < ·)) {limits : Nat → Nat}
    (positive : ∀ i, 0 < limits i) {requests i : Nat}
    (enough : (after cursor listing).length < requests) :
    ∃ pages, walk listing limits requests i cursor = some pages ∧
      pages.flatten = after cursor listing ∧ pages.length ≤ requests ∧
      ∀ j p, pages[j]? = some p → j + 1 < pages.length → p.length = limits (i + j) := by
  induction requests generalizing i cursor with
  | zero => omega
  | succ requests ih =>
    unfold walk
    cases hn : next listing cursor (limits i) with
    | none =>
      have fits := (next_eq_none_iff_fits (positive i)).mp hn
      refine ⟨_, rfl, ?_, by simp, ?_⟩
      · simpa [page] using List.take_of_length_le fits
      · intro j p _ hj
        simp at hj
    | some c =>
      have rest := after_next sorted hn
      have shorter : (after (some c) listing).length < requests := by
        rw [rest, List.length_drop]
        have := positive i
        have := more_of_next hn
        omega
      obtain ⟨pages, hw, flat, few, full⟩ := ih (i := i + 1) shorter
      refine ⟨page listing cursor (limits i) :: pages, by simp [hw], ?_, ?_, ?_⟩
      · rw [List.flatten_cons, flat, rest]
        exact List.take_append_drop _ _
      · simpa using few
      · intro j p hp hj
        cases j with
        | zero =>
          have same : page listing cursor (limits i) = p := by simpa using hp
          rw [← same]
          exact length_page_of_next hn
        | succ j =>
          have found : pages[j]? = some p := by simpa using hp
          have inner : j + 1 < pages.length := by simpa using hj
          rw [full j p found inner]
          congr 1
          omega

end KeysetPaging
