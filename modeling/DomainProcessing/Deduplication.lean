import DomainProcessing.FirstOccurrences
import DomainProcessing.Normalization

namespace DomainProcessing

open FirstOccurrences

/-- The class of an entry: its validity with the normalised value, or with the
trimmed text in lower case. -/
def entryClass (text : PythonText) (domain : String) : Bool × String :=
  let result := normalizeDomain text domain
  if result.isValid then (true, result.value)
  else (false, String.ofList (text.lower (strip domain.toList)))

/-- What stands for an entry in the result. -/
def entryOf (text : PythonText) (domain : String) : String :=
  let result := normalizeDomain text domain
  if result.isValid then result.value else domain

section Keys

variable {text : PythonText} {x y : String}

theorem dedupKey_of_valid (h : (normalizeDomain text x).isValid) :
    dedupKey text x = (normalizeDomain text x).value := if_pos h

theorem dedupKey_of_invalid (h : ¬(normalizeDomain text x).isValid) :
    dedupKey text x = "__invalid__" ++ String.ofList (text.lower (strip x.toList)) := if_neg h

theorem entryClass_of_valid (h : (normalizeDomain text x).isValid) :
    entryClass text x = (true, (normalizeDomain text x).value) := if_pos h

theorem entryClass_of_invalid (h : ¬(normalizeDomain text x).isValid) :
    entryClass text x = (false, String.ofList (text.lower (strip x.toList))) := if_neg h

/-- No hostname looks like the marker of an invalid entry. -/
theorem dedupKey_ne (hx : (normalizeDomain text x).isValid) (hy : ¬(normalizeDomain text y).isValid) :
    dedupKey text x ≠ dedupKey text y := by
  rw [dedupKey_of_valid hx, dedupKey_of_invalid hy]
  intro same
  obtain ⟨v, syntaxOk, normal⟩ := normalizeDomain_valid hx
  have marker : '_' ∈ (normalizeDomain text x).value.toList := by
    rw [same, String.toList_append]
    exact List.mem_append_left _ (by decide)
  rw [normal, String.toList_ofList] at marker
  have chars := isHostChar_of_syntax syntaxOk
  exact absurd (chars '_' marker) (by decide)

theorem dedupKey_eq_iff : dedupKey text x = dedupKey text y ↔ entryClass text x = entryClass text y := by
  by_cases hx : (normalizeDomain text x).isValid
  · rw [entryClass_of_valid hx]
    by_cases hy : (normalizeDomain text y).isValid
    · rw [entryClass_of_valid hy, dedupKey_of_valid hx, dedupKey_of_valid hy, Prod.mk.injEq]
      exact (and_iff_right rfl).symm
    · rw [entryClass_of_invalid hy]
      exact iff_of_false (dedupKey_ne hx hy) fun h => absurd (Prod.mk.inj h).1 (by decide)
  · rw [entryClass_of_invalid hx]
    by_cases hy : (normalizeDomain text y).isValid
    · rw [entryClass_of_valid hy]
      exact iff_of_false (dedupKey_ne hy hx).symm fun h => absurd (Prod.mk.inj h).1 (by decide)
    · rw [entryClass_of_invalid hy, dedupKey_of_invalid hx, dedupKey_of_invalid hy, Prod.mk.injEq,
        String.append_right_inj]
      exact (and_iff_right rfl).symm

theorem entryOf_of_valid (h : (normalizeDomain text x).isValid) :
    entryOf text x = (normalizeDomain text x).value := if_pos h

theorem entryOf_of_invalid (h : ¬(normalizeDomain text x).isValid) : entryOf text x = x := if_neg h

theorem normalizeDomain_entryOf (h : (normalizeDomain text x).isValid) :
    normalizeDomain text (entryOf text x) = normalizeDomain text x := by
  rw [entryOf_of_valid h, normalizeDomain_value h]

theorem dedupKey_entryOf : dedupKey text (entryOf text x) = dedupKey text x := by
  by_cases h : (normalizeDomain text x).isValid
  · unfold dedupKey
    rw [normalizeDomain_entryOf h, if_pos h, if_pos h]
  · rw [entryOf_of_invalid h]

theorem entryOf_entryOf : entryOf text (entryOf text x) = entryOf text x := by
  by_cases h : (normalizeDomain text x).isValid
  · have same := normalizeDomain_entryOf h
    have again : (normalizeDomain text (entryOf text x)).isValid := by
      rw [same]
      exact h
    rw [entryOf_of_valid again, same, entryOf_of_valid h]
  · rw [entryOf_of_invalid h, entryOf_of_invalid h]

end Keys

section Lists

variable {text : PythonText}

theorem deduplicateFrom_eq (seen xs : List String) :
    deduplicateFrom text seen xs = (firsts (dedupKey text) seen xs).map (entryOf text) := by
  induction xs generalizing seen with
  | nil => rfl
  | cons x rest ih =>
    have entry : (if (normalizeDomain text x).isValid then dedupKey text x else x) = entryOf text x := by
      split
      next h => rw [dedupKey_of_valid h, entryOf_of_valid h]
      next h => rw [entryOf_of_invalid h]
    rw [deduplicateFrom, firsts]
    by_cases known : dedupKey text x ∈ seen
    · rw [if_pos known, if_pos known, ih]
    · rw [if_neg known, if_neg known, List.map_cons, entry, ih]

theorem map_entryClass (xs : List String) :
    (xs.map (entryOf text)).map (entryClass text) = xs.map (entryClass text) := by
  rw [List.map_map]
  refine List.map_congr_left fun x _ => ?_
  rw [Function.comp_apply]
  exact dedupKey_eq_iff.mp dedupKey_entryOf

theorem map_entryOf (xs : List String) : (xs.map (entryOf text)).map (entryOf text) = xs.map (entryOf text) := by
  rw [List.map_map]
  refine List.map_congr_left fun x _ => ?_
  rw [Function.comp_apply]
  exact entryOf_entryOf

end Lists

/-- One entry of every class is kept, the first one. -/
theorem deduplicateDomains_classes (text : PythonText) (xs ys : List String) :
    (deduplicateDomains text xs).map (entryClass text) = (xs.map (entryClass text)).eraseDups ∧
    (deduplicateDomains text xs).Sublist (xs.map (entryOf text)) ∧
    (∀ x y, dedupKey text x = dedupKey text y ↔ entryClass text x = entryClass text y) ∧
    deduplicateDomains text (deduplicateDomains text xs) = deduplicateDomains text xs ∧
    deduplicateDomains text xs <+: deduplicateDomains text (xs ++ ys) := by
  unfold deduplicateDomains
  simp only [deduplicateFrom_eq]
  have chosen : firsts (dedupKey text) [] xs = firsts (entryClass text) [] xs :=
    firsts_congr (fun _ _ => dedupKey_eq_iff) []
  refine ⟨?_, ?_, ?_, ?_, ?_⟩
  · rw [map_entryClass, chosen, firsts_keys]
    simp only [List.not_mem_nil, not_false_eq_true, decide_true, List.filter_true]
  · exact firsts_sublist.map _
  · exact fun x y => dedupKey_eq_iff
  · have keep : ∀ x, dedupKey text (entryOf text x) = dedupKey text x := fun x => dedupKey_entryOf
    rw [firsts_map keep, firsts_firsts, map_entryOf]
  · exact firsts_prefix.map _

example : deduplicateDomains asciiText ["B.com", " invalid..domain", "https://b.COM./x", "Invalid..Domain"] =
    ["b.com", " invalid..domain"] := by
  decide +kernel

end DomainProcessing
