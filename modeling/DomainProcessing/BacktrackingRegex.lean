import Mathlib.Data.List.Infix

namespace BacktrackingRegex

/-- What the group of a match has captured, and what the match has left. -/
structure Match (α : Type*) where
  group : Option (List α)
  rest : List α

/-- Regular expressions of a backtracking matcher. -/
inductive Regex (α : Type*)
  | empty
  | char (p : α → Bool)
  | seq (r t : Regex α)
  | greedy (p : α → Bool)
  | reluctant (p : α → Bool)
  | group (r : Regex α)

variable {α : Type*}

/-- What `p*` can leave, the longest match first. -/
def greedyRests (p : α → Bool) : List α → List (List α)
  | [] => [[]]
  | c :: s => if p c then greedyRests p s ++ [c :: s] else [c :: s]

/-- What `p*?` can leave, the shortest match first. -/
def reluctantRests (p : α → Bool) : List α → List (List α)
  | [] => [[]]
  | c :: s => (c :: s) :: if p c then reluctantRests p s else []

namespace Regex

/-- The matches at the start of a text, in the order in which they are tried. -/
def matchesOf : Regex α → List α → List (Match α)
  | .empty, s => [⟨none, s⟩]
  | .char p, s =>
    match s with
    | [] => []
    | c :: rest => if p c then [⟨none, rest⟩] else []
  | .seq r t, s =>
    (r.matchesOf s).flatMap fun m => (t.matchesOf m.rest).map fun m' => ⟨m'.group.or m.group, m'.rest⟩
  | .greedy p, s => (greedyRests p s).map fun rest => ⟨none, rest⟩
  | .reluctant p, s => (reluctantRests p s).map fun rest => ⟨none, rest⟩
  | .group r, s =>
    (r.matchesOf s).map fun m => ⟨some (s.take (s.length - m.rest.length)), m.rest⟩

/-- The first match at the leftmost place that has one. -/
def search (r : Regex α) : List α → Option (Match α)
  | [] => (r.matchesOf []).head?
  | c :: s => (r.matchesOf (c :: s)).head?.or (r.search s)

def literal : List (α → Bool) → Regex α
  | [] => .empty
  | p :: ps => .seq (.char p) (literal ps)

end Regex

/-- What a text that begins with the literal has after it. -/
def dropLiteral : List (α → Bool) → List α → Option (List α)
  | [], s => some s
  | _ :: _, [] => none
  | p :: ps, c :: s => if p c then dropLiteral ps s else none

/-- What is before and after the first place where the literal stands. -/
def splitLiteral (ps : List (α → Bool)) : List α → Option (List α × List α)
  | [] => (dropLiteral ps []).map fun rest => ([], rest)
  | c :: s =>
    match dropLiteral ps (c :: s) with
    | some rest => some ([], rest)
    | none => (splitLiteral ps s).map fun parts => (c :: parts.1, parts.2)

variable {p q : α → Bool} {ps : List (α → Bool)} {r t : Regex α} {s s' rest before after : List α}
  {c : α}

theorem matchesOf_literal (ps : List (α → Bool)) (s : List α) :
    (Regex.literal ps).matchesOf s = ((dropLiteral ps s).map (Match.mk none)).toList := by
  induction ps generalizing s with
  | nil => rfl
  | cons p ps ih =>
    cases s with
    | nil => rfl
    | cons c s =>
      by_cases accepted : p c = true
      · simp only [Regex.literal, Regex.matchesOf, dropLiteral, accepted, if_true, List.flatMap_singleton,
          ih, Option.or_none]
        exact List.map_id _
      · simp [Regex.literal, Regex.matchesOf, dropLiteral, accepted]

theorem dropLiteral_eq (h : dropLiteral ps s = some rest) :
    ∃ front, front.length = ps.length ∧ s = front ++ rest := by
  induction ps generalizing s with
  | nil => exact ⟨[], rfl, Option.some.inj h⟩
  | cons p ps ih =>
    cases s with
    | nil => cases h
    | cons c s =>
      simp only [dropLiteral, Option.ite_none_right_eq_some] at h
      obtain ⟨front, length, rfl⟩ := ih h.2
      exact ⟨c :: front, by rw [List.length_cons, length, List.length_cons], rfl⟩

theorem dropLiteral_append (front : List α) (h : dropLiteral ps front = some rest) (s : List α) :
    dropLiteral ps (front ++ s) = some (rest ++ s) := by
  induction ps generalizing front with
  | nil =>
    cases Option.some.inj h
    rfl
  | cons p ps ih =>
    cases front with
    | nil => cases h
    | cons c front =>
      simp only [dropLiteral, Option.ite_none_right_eq_some] at h
      simp only [List.cons_append, dropLiteral, h.1, if_true]
      exact ih front h.2

/-- The literal is found exactly if some rest of the text begins with it. -/
theorem splitLiteral_isSome :
    (splitLiteral ps s).isSome = true ↔ ∃ s', s' <:+ s ∧ (dropLiteral ps s').isSome = true := by
  induction s with
  | nil =>
    simp only [splitLiteral, Option.isSome_map, List.suffix_nil, exists_eq_left]
  | cons c s ih =>
    simp only [List.suffix_cons_iff, or_and_right, exists_or, exists_eq_left, splitLiteral]
    cases here : dropLiteral ps (c :: s) with
    | some rest => simp
    | none => simp [ih]

theorem splitLiteral_eq (h : splitLiteral ps s = some (before, after)) :
    ∃ s', s = before ++ s' ∧ dropLiteral ps s' = some after := by
  induction s generalizing before with
  | nil =>
    obtain ⟨rest, here, same⟩ := Option.map_eq_some_iff.mp h
    cases same
    exact ⟨[], rfl, here⟩
  | cons c s ih =>
    simp only [splitLiteral] at h
    split at h
    next rest here =>
      cases Option.some.inj h
      exact ⟨c :: s, rfl, here⟩
    next =>
      obtain ⟨⟨front, behind⟩, later, same⟩ := Option.map_eq_some_iff.mp h
      cases same
      obtain ⟨s', rfl, drops⟩ := ih later
      exact ⟨s', rfl, drops⟩

/-- The first place is the one before which the literal does not begin. -/
theorem splitLiteral_append (h : dropLiteral ps s = some rest)
    (first : ∀ u, u <:+ before → u ≠ [] → dropLiteral ps (u ++ s) = none) :
    splitLiteral ps (before ++ s) = some (before, rest) := by
  induction before with
  | nil =>
    cases s with
    | nil => simp only [List.nil_append, splitLiteral, h, Option.map_some]
    | cons c s => simp only [List.nil_append, splitLiteral, h]
  | cons c before ih =>
    have here := first (c :: before) List.suffix_rfl (List.cons_ne_nil c before)
    have later := ih fun u inside some_char => first u (inside.trans (List.suffix_cons c before)) some_char
    simp only [List.cons_append, splitLiteral] at here ⊢
    rw [here, later]
    rfl

theorem dropLiteral_none_append {front : List α} (long : ps.length ≤ front.length)
    (h : dropLiteral ps front = none) (s : List α) : dropLiteral ps (front ++ s) = none := by
  induction ps generalizing front with
  | nil => cases h
  | cons p ps ih =>
    cases front with
    | nil => cases long
    | cons c front =>
      simp only [List.cons_append, dropLiteral] at h ⊢
      split
      next accepted =>
        rw [if_pos accepted] at h
        exact ih (Nat.le_of_succ_le_succ long) h
      next => rfl

/-- The text is a spelling of the literal, and none begins before it. -/
structure FirstSpelling (ps : List (α → Bool)) (before spelling : List α) : Prop where
  spelled : dropLiteral ps spelling = some []
  first : ∀ u, u <:+ before → u ≠ [] → dropLiteral ps (u ++ spelling) = none

theorem FirstSpelling.split {spelling : List α} (h : FirstSpelling ps before spelling) (s : List α) :
    splitLiteral ps (before ++ (spelling ++ s)) = some (before, s) := by
  refine splitLiteral_append (dropLiteral_append spelling h.spelled s) ?_
  intro u inside some_char
  obtain ⟨front, length, same⟩ := dropLiteral_eq h.spelled
  rw [List.append_nil] at same
  rw [← List.append_assoc]
  refine dropLiteral_none_append ?_ (h.first u inside some_char) s
  rw [List.length_append, same, length]
  exact Nat.le_add_left _ _

/-- Nothing begins a literal whose first character does not occur. -/
theorem FirstSpelling.of_absent {spelling : List α} (spelled : dropLiteral (p :: ps) spelling = some [])
    (absent : before.all (fun c => !p c) = true) : FirstSpelling (p :: ps) before spelling where
  spelled := spelled
  first := by
    intro u inside some_char
    cases u with
    | nil => exact absurd rfl some_char
    | cons c u =>
      have here := List.all_eq_true.mp absent c (inside.subset List.mem_cons_self)
      simp only [Bool.not_eq_true'] at here
      simp [dropLiteral, here]

theorem matchesOf_char_seq (q : α → Bool) (t : Regex α) (c : α) (s : List α) :
    ((Regex.char q).seq t).matchesOf (c :: s) = if q c then t.matchesOf s else [] := by
  simp only [Regex.matchesOf]
  split
  next =>
    simp only [List.flatMap_singleton, Option.or_none]
    exact List.map_id _
  next => rfl

theorem matchesOf_literal_seq (h : dropLiteral ps s = some rest) (t : Regex α) :
    ((Regex.literal ps).seq t).matchesOf s = t.matchesOf rest := by
  rw [Regex.matchesOf, matchesOf_literal, h]
  simp only [Option.map_some, Option.toList_some, List.flatMap_singleton, Option.or_none]
  exact List.map_id _

theorem matchesOf_literal_seq_none (h : dropLiteral ps s = none) (t : Regex α) :
    ((Regex.literal ps).seq t).matchesOf s = [] := by
  rw [Regex.matchesOf, matchesOf_literal, h]
  rfl

/-- A greedy class gives nothing back to a character outside of it. -/
theorem matchesOf_greedy_char (apart : ∀ c, q c = true → p c = false) (t : Regex α) (s : List α) :
    ((Regex.greedy p).seq ((Regex.char q).seq t)).matchesOf s =
      ((Regex.char q).seq t).matchesOf (s.dropWhile p) := by
  have plain : ∀ s, ((Regex.greedy p).seq ((Regex.char q).seq t)).matchesOf s =
      (greedyRests p s).flatMap ((Regex.char q).seq t).matchesOf := by
    intro s
    rw [Regex.matchesOf, Regex.matchesOf, List.flatMap_map]
    congr 1
    funext rest
    simp only [Option.or_none]
    exact List.map_id _
  have refused : ∀ c s, p c = true → ((Regex.char q).seq t).matchesOf (c :: s) = [] := by
    intro c s inside
    have outside : q c ≠ true := by
      intro accepted
      rw [apart c accepted] at inside
      cases inside
    rw [matchesOf_char_seq, if_neg outside]
  rw [plain]
  induction s with
  | nil => simp [greedyRests]
  | cons c s ih =>
    by_cases inside : p c = true
    · rw [greedyRests, if_pos inside, List.flatMap_append, ih, List.flatMap_singleton, refused c s inside,
        List.append_nil, List.dropWhile_cons_of_pos inside]
    · rw [greedyRests, if_neg inside, List.flatMap_singleton, List.dropWhile_cons_of_neg inside]

theorem take_front (front s : List α) :
    (front ++ s).take ((front ++ s).length - s.length) = front := by
  rw [List.length_append, Nat.add_sub_cancel, List.take_left]

theorem head_reluctantRests (ps : List (α → Bool)) (front s : List α) :
    ((reluctantRests (fun _ => true) s).flatMap fun rest =>
      ((dropLiteral ps rest).map fun after =>
        (⟨some ((front ++ s).take ((front ++ s).length - rest.length)), after⟩ : Match α)).toList).head? =
      (splitLiteral ps s).map fun parts => ⟨some (front ++ parts.1), parts.2⟩ := by
  induction s generalizing front with
  | nil =>
    simp only [reluctantRests, splitLiteral, List.flatMap_singleton, take_front]
    cases dropLiteral ps ([] : List α) <;> simp
  | cons c s ih =>
    have next := ih (front ++ [c])
    simp only [List.append_assoc, List.singleton_append] at next
    simp only [reluctantRests, if_true, List.flatMap_cons, splitLiteral, take_front]
    cases dropLiteral ps (c :: s) with
    | some rest => simp
    | none =>
      simp only [Option.map_none, Option.toList_none, List.nil_append, next, Option.map_map]
      rfl

/-- A reluctant group before a literal captures what is before its first place. -/
theorem head_reluctant_literal (ps : List (α → Bool)) (s : List α) :
    (((Regex.reluctant fun _ => true).group.seq (.literal ps)).matchesOf s).head? =
      (splitLiteral ps s).map fun parts => ⟨some parts.1, parts.2⟩ := by
  have tried := head_reluctantRests ps [] s
  simp only [List.nil_append] at tried
  rw [← tried]
  simp only [Regex.matchesOf, matchesOf_literal, List.map_map, List.flatMap_map]
  congr 2
  funext rest
  simp only [Function.comp_apply]
  cases dropLiteral ps rest <;> rfl

theorem splitLiteral_isSome_mono (inside : s' <:+ s) (h : (splitLiteral ps s').isSome = true) :
    (splitLiteral ps s).isSome = true := by
  obtain ⟨u, rest_of, drops⟩ := splitLiteral_isSome.mp h
  exact splitLiteral_isSome.mpr ⟨u, rest_of.trans inside, drops⟩

/-- What begins with a character outside of a class comes after the class. -/
theorem suffix_dropWhile (outside : p c = false) (inside : c :: s' <:+ s) :
    c :: s' <:+ s.dropWhile p := by
  induction s with
  | nil => exact inside
  | cons d s ih =>
    rcases List.suffix_cons_iff.mp inside with same | later
    · cases same
      rw [List.dropWhile_cons_of_neg (by simp [outside])]
    · by_cases member : p d = true
      · rw [List.dropWhile_cons_of_pos member]
        exact ih later
      · rw [List.dropWhile_cons_of_neg member]
        exact inside

end BacktrackingRegex
