import Mathlib.Data.List.Basic

namespace PrefixCodes

variable {α β : Type*}

/-- A code word can be told from whatever follows it. -/
def SelfDelimiting (code : α → List β) : Prop :=
  ∀ ⦃a b s t⦄, code a ++ s = code b ++ t → a = b ∧ s = t

/-- Every code word starts with something else than `stop`. -/
def StartsUnlike (stop : β) (code : α → List β) : Prop := ∀ a, ∃ c w, code a = c :: w ∧ c ≠ stop

variable {code : α → List β} {stop sep : β} {xs ys : List α} {s t : List β}

/-- A code that can be read back is self-delimiting. -/
theorem SelfDelimiting.of_reader (read : List β → Option (α × List β))
    (reads : ∀ a rest, read (code a ++ rest) = some (a, rest)) : SelfDelimiting code := by
  intro a b s t h
  have same : some (a, s) = some (b, t) := by rw [← reads a s, ← reads b t, h]
  exact Prod.mk.inj (Option.some.inj same)

theorem SelfDelimiting.comp {γ : Type*} {f : γ → α} (h : SelfDelimiting code) (inj : Function.Injective f) :
    SelfDelimiting (code ∘ f) := by
  intro a b s t same
  exact (h same).imp_left fun he => inj he

theorem SelfDelimiting.cons (h : SelfDelimiting code) (mark : β) :
    SelfDelimiting fun a => mark :: code a := by
  intro a b s t same
  exact h (List.cons.inj same).2

/-- Words without separators, closed by a symbol that starts none of them. -/
theorem SelfDelimiting.flatMap_stop (h : SelfDelimiting code) (unlike : StartsUnlike stop code)
    (same : xs.flatMap code ++ stop :: s = ys.flatMap code ++ stop :: t) : xs = ys ∧ s = t := by
  induction xs generalizing ys with
  | nil =>
    cases ys with
    | nil => exact ⟨rfl, (List.cons.inj same).2⟩
    | cons y rest =>
      obtain ⟨c, w, word, ne⟩ := unlike y
      rw [List.flatMap_cons, word] at same
      exact absurd (List.cons.inj same).1.symm ne
  | cons x xs ih =>
    cases ys with
    | nil =>
      obtain ⟨c, w, word, ne⟩ := unlike x
      rw [List.flatMap_cons, word] at same
      exact absurd (List.cons.inj same).1 ne
    | cons y rest =>
      rw [List.flatMap_cons, List.flatMap_cons, List.append_assoc, List.append_assoc] at same
      obtain ⟨rfl, tails⟩ := h same
      obtain ⟨rfl, rests⟩ := ih tails
      exact ⟨rfl, rests⟩

/-- Any number of words, closed by a stop symbol, as one word. -/
theorem SelfDelimiting.closed (h : SelfDelimiting code) (unlike : StartsUnlike stop code) :
    SelfDelimiting fun xs : List α => xs.flatMap code ++ [stop] := by
  intro xs ys s t same
  rw [List.append_assoc, List.append_assoc] at same
  exact h.flatMap_stop unlike same

theorem intercalate_cons (sep : β) (x : α) (xs : List α) :
    [sep].intercalate ((x :: xs).map code) = code x ++ xs.flatMap fun a => sep :: code a := by
  induction xs generalizing x with
  | nil => simp [List.intercalate]
  | cons y rest ih =>
    have shifted := ih y
    simp only [List.intercalate, List.map_cons, List.intersperse_cons_cons, List.flatten_cons] at shifted ⊢
    rw [shifted]
    simp

/-- Words with separators between them, closed by a stop symbol. -/
theorem SelfDelimiting.intercalate_stop (h : SelfDelimiting code) (unlike : StartsUnlike stop code)
    (ne : sep ≠ stop)
    (same : [sep].intercalate (xs.map code) ++ stop :: s = [sep].intercalate (ys.map code) ++ stop :: t) :
    xs = ys ∧ s = t := by
  have separated : StartsUnlike stop fun a => sep :: code a := fun a => ⟨sep, code a, rfl, ne⟩
  cases xs with
  | nil =>
    cases ys with
    | nil => exact ⟨rfl, (List.cons.inj same).2⟩
    | cons y rest =>
      obtain ⟨c, w, word, other⟩ := unlike y
      rw [intercalate_cons, word] at same
      exact absurd (List.cons.inj same).1.symm other
  | cons x xs =>
    cases ys with
    | nil =>
      obtain ⟨c, w, word, other⟩ := unlike x
      rw [intercalate_cons, word] at same
      exact absurd (List.cons.inj same).1 other
    | cons y rest =>
      rw [intercalate_cons, intercalate_cons, List.append_assoc, List.append_assoc] at same
      obtain ⟨rfl, tails⟩ := h same
      obtain ⟨rfl, rests⟩ := (h.cons sep).flatMap_stop separated tails
      exact ⟨rfl, rests⟩

end PrefixCodes
