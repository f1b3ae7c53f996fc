import DomainProcessing.Normalization
import DomainProcessing.PrefixCodes

namespace DomainProcessing

/-- A code point of a Python string. JSON text can spell surrogates that are not
part of a pair, and `json.loads` keeps them. -/
inductive CodePoint
  | char (c : Char)
  | surrogate (offset : Fin 2048)
  deriving DecidableEq, Repr

namespace CodePoint

def value : CodePoint → Nat
  | char c => c.toNat
  | surrogate offset => 0xd800 + offset

def char? : CodePoint → Option Char
  | char c => some c
  | surrogate _ => none

/-- A class of characters; no surrogate is in one that the code asks for. -/
def within (p : Char → Bool) : CodePoint → Bool
  | char c => p c
  | surrogate _ => false

end CodePoint

/-- `str` -/
abbrev PyStr := List CodePoint

/-- `NormalizedDomain`, with the code points it may hold. -/
structure PyNormalizedDomain where
  value : PyStr
  isValid : Bool
  error : Option PyStr
  deriving DecidableEq, Repr

namespace PyStr

open CodePoint

def ofChars (s : List Char) : PyStr := s.map char

def ofString (s : String) : PyStr := ofChars s.toList

/-- All of the characters, if there is no surrogate among them. -/
def chars? (s : PyStr) : Option (List Char) := s.mapM char?

def strip (s : PyStr) : PyStr := (s.dropWhile (within isSpace)).rdropWhile (within isSpace)

/-- What follows a match of `^[a-zA-Z][a-zA-Z0-9+.-]*://`. -/
def afterScheme : PyStr → Option PyStr
  | [] => none
  | p :: rest =>
    if p.within Char.isAlpha then
      match rest.dropWhile (within isSchemeChar) with
      | char ':' :: char '/' :: char '/' :: tail => some tail
      | _ => none
    else none

def before (sep : Char) (s : PyStr) : PyStr := s.takeWhile (· ≠ char sep)

def hostPart (s : PyStr) : PyStr :=
  match afterScheme s with
  | none => s
  | some tail => before ':' (before '#' (before '?' (before '/' tail)))

/-- `str.lower` after the characters `run`. A surrogate is not cased, so that
what decides over a final sigma ends there. -/
def lowerFrom (text : PythonText) (run : List Char) : PyStr → PyStr
  | [] => ofChars (text.lower run)
  | char c :: rest => lowerFrom text (run ++ [c]) rest
  | surrogate offset :: rest => ofChars (text.lower run) ++ surrogate offset :: lowerFrom text [] rest

def lower (text : PythonText) (s : PyStr) : PyStr := lowerFrom text [] s

/-- The `idna` codec; `nameprep` prohibits surrogates. -/
def idna (text : PythonText) (label : PyStr) : Except IdnaFailure PyStr :=
  match chars? label with
  | none => .error .unicodeError
  | some chars => (text.idna chars).map ofChars

/-- A label as its encoding, or as it is when the codec raises `UnicodeError`. -/
def idnaLabel (text : PythonText) (label : PyStr) : Except String PyStr :=
  match idna text label with
  | .ok encoded => .ok encoded
  | .error .unicodeError => .ok label
  | .error (.other message) => .error message

def isValidDomainLabel (label : PyStr) : Bool :=
  if label = [] then false
  else if label.length > 63 then false
  else if label.head? = some (char '-') ∨ label.getLast? = some (char '-') then false
  else label.all (within isLabelChar)

/-- The error, or `none` for a valid domain. -/
def validateDomainSyntax (domain : PyStr) : Option PyStr :=
  if domain = [] then some (ofString "empty domain")
  else if domain.length > 253 then some (ofString "domain too long")
  else
    let labels := domain.splitOn (char '.')
    if labels.length < 2 then some (ofString "domain must have at least two labels")
    else
      (labels.find? fun label => !isValidDomainLabel label).map fun label =>
        ofString "invalid label: " ++ label

def normalizeDomain (text : PythonText) (domain : PyStr) : PyNormalizedDomain :=
  let trimmed := strip domain
  if trimmed = [] then ⟨[], false, some (ofString "empty domain after whitespace trimming")⟩
  else
    let lowered := (lower text (hostPart trimmed)).rdropWhile (· == char '.')
    if lowered = [] then ⟨[], false, some (ofString "empty domain after normalization")⟩
    else
      match (lowered.splitOn (char '.')).mapM (idnaLabel text) with
      | .error message => ⟨lowered, false, some (ofString ("IDNA encoding failed: " ++ message))⟩
      | .ok labels =>
        let normalized := [char '.'].intercalate labels
        match validateDomainSyntax normalized with
        | some error => ⟨normalized, false, some error⟩
        | none => ⟨normalized, true, none⟩

end PyStr

/-- U+0000 -/
def nul : Char := Char.ofNat 0

/-- Text that PostgreSQL takes, in a `text` column or inside of `jsonb`. -/
def Storable (s : String) : Prop := nul ∉ s.toList

instance (s : String) : Decidable (Storable s) := inferInstanceAs (Decidable (nul ∉ s.toList))

/-- The same of any Python string: no U+0000 and no surrogate. -/
def PyStr.Storable (s : PyStr) : Prop := ∀ p ∈ s, p.within (· ≠ nul) = true

instance (s : PyStr) : Decidable s.Storable :=
  inferInstanceAs (Decidable (∀ p ∈ s, p.within (· ≠ nul) = true))

/-- The characters of a string, which is all of it when it is storable. -/
def PyStr.text (s : PyStr) : String := String.ofList (s.filterMap CodePoint.char?)

/-- A result without surrogates. -/
def PyNormalizedDomain.ofText (d : NormalizedDomain) : PyNormalizedDomain :=
  ⟨PyStr.ofString d.value, d.isValid, d.error.map PyStr.ofString⟩

namespace PyStr

open CodePoint

section Characters

variable {s : List Char} {sep : Char}

theorem char_injective : Function.Injective char := fun _ _ h => CodePoint.char.inj h

theorem ofChars_eq_nil : ofChars s = [] ↔ s = [] := List.map_eq_nil_iff

theorem ofString_append (a b : String) : ofString (a ++ b) = ofString a ++ ofString b := by
  unfold ofString ofChars
  rw [String.toList_append, List.map_append]

theorem ofString_ofList : ofString (String.ofList s) = ofChars s := by
  rw [ofString, String.toList_ofList]

theorem text_ofString (s : String) : text (ofString s) = s := by
  unfold text ofString ofChars
  rw [List.filterMap_map]
  have all : s.toList.filterMap some = s.toList := List.filterMap_some
  exact (congrArg String.ofList all).trans String.ofList_toList

theorem ofString_injective : Function.Injective ofString := Function.LeftInverse.injective text_ofString

theorem storable_ofString {s : String} : (ofString s).Storable ↔ DomainProcessing.Storable s := by
  unfold PyStr.Storable DomainProcessing.Storable ofString ofChars
  rw [List.forall_mem_map]
  simp only [within, decide_eq_true_eq]
  exact ⟨fun h inside => h nul inside rfl, fun h c hc same => h (same ▸ hc)⟩

/-- Nothing of a storable string is lost. -/
theorem ofString_text {s : PyStr} (storable : s.Storable) : ofString s.text = s := by
  unfold ofString ofChars text
  rw [String.toList_ofList]
  induction s with
  | nil => rfl
  | cons p rest ih =>
    obtain ⟨first, others⟩ := List.forall_mem_cons.mp storable
    cases p with
    | char c => exact congrArg (char c :: ·) (ih others)
    | surrogate _ => cases first

theorem chars?_ofChars : chars? (ofChars s) = some s := by
  induction s with
  | nil => rfl
  | cons c rest ih =>
    have tail : chars? (ofChars rest) = some rest := ih
    unfold chars? ofChars at tail ⊢
    rw [List.map_cons, List.mapM_cons, tail]
    rfl

theorem dropWhile_ofChars {p : Char → Bool} : (ofChars s).dropWhile (within p) = ofChars (s.dropWhile p) :=
  List.dropWhile_map

theorem rdropWhile_ofChars {p : CodePoint → Bool} :
    (ofChars s).rdropWhile p = ofChars (s.rdropWhile (p ∘ char)) := by
  unfold ofChars List.rdropWhile
  rw [← List.map_reverse, List.dropWhile_map, List.map_reverse]

theorem strip_ofChars : strip (ofChars s) = ofChars (DomainProcessing.strip s) := by
  unfold strip
  rw [dropWhile_ofChars, rdropWhile_ofChars]
  rfl

theorem afterScheme_ofChars : afterScheme (ofChars s) = (DomainProcessing.afterScheme s).map ofChars := by
  cases s with
  | nil => rfl
  | cons c rest =>
    have head : (char c).within Char.isAlpha = c.isAlpha := rfl
    show afterScheme (char c :: ofChars rest) = _
    rw [afterScheme, DomainProcessing.afterScheme, head, dropWhile_ofChars]
    split
    next =>
      generalize rest.dropWhile isSchemeChar = tail
      split
      next _ same =>
        obtain ⟨_, _, rfl, colon, same⟩ := List.map_eq_cons_iff.mp same
        obtain ⟨_, _, rfl, slash, same⟩ := List.map_eq_cons_iff.mp same
        obtain ⟨_, _, rfl, second, rfl⟩ := List.map_eq_cons_iff.mp same
        cases char_injective colon
        cases char_injective slash
        cases char_injective second
        rfl
      next unlike =>
        split
        next host => exact absurd rfl (unlike (ofChars host))
        next => rfl
    next => rfl

theorem before_ofChars : before sep (ofChars s) = ofChars (DomainProcessing.before sep s) := by
  unfold before DomainProcessing.before ofChars
  rw [List.takeWhile_map]
  congr 2
  funext c
  simp

theorem hostPart_ofChars : hostPart (ofChars s) = ofChars (DomainProcessing.hostPart s) := by
  unfold hostPart DomainProcessing.hostPart
  rw [afterScheme_ofChars]
  cases DomainProcessing.afterScheme s with
  | none => rfl
  | some tail => simp only [Option.map_some, before_ofChars]

variable {text : PythonText}

theorem lowerFrom_ofChars {run : List Char} : lowerFrom text run (ofChars s) = ofChars (text.lower (run ++ s)) := by
  induction s generalizing run with
  | nil => rw [List.append_nil]; rfl
  | cons c rest ih =>
    show lowerFrom text (run ++ [c]) (ofChars rest) = _
    rw [ih, List.append_assoc, List.singleton_append]

theorem lower_ofChars : lower text (ofChars s) = ofChars (text.lower s) := lowerFrom_ofChars

theorem splitOn_ofChars : (ofChars s).splitOn (char sep) = (s.splitOn sep).map ofChars := by
  induction s with
  | nil => rfl
  | cons c rest ih =>
    have same : (char c == char sep) = (c == sep) := by simp
    show (char c :: ofChars rest).splitOn (char sep) = _
    rw [List.splitOn_cons_eq_if_modifyHead, List.splitOn_cons_eq_if_modifyHead, same, ih]
    split
    · rfl
    · obtain ⟨first, others, hs⟩ := List.exists_cons_of_ne_nil (List.splitOn_ne_nil sep rest)
      rw [hs]
      rfl

theorem intercalate_ofChars {labels : List (List Char)} :
    [char sep].intercalate (labels.map ofChars) = ofChars ([sep].intercalate labels) := by
  cases labels with
  | nil => rfl
  | cons first rest =>
    have joined : [sep].intercalate ((first :: rest).map id) = first ++ rest.flatMap fun l => sep :: l :=
      PrefixCodes.intercalate_cons sep first rest
    rw [List.map_id] at joined
    rw [PrefixCodes.intercalate_cons, joined]
    unfold ofChars
    rw [List.map_append, List.map_flatMap]
    rfl

theorem idnaLabel_ofChars : idnaLabel text (ofChars s) = (DomainProcessing.idnaLabel text s).map ofChars := by
  unfold idnaLabel DomainProcessing.idnaLabel idna
  rw [chars?_ofChars]
  dsimp only
  cases text.idna s with
  | ok encoded => rfl
  | error failure => cases failure <;> rfl

theorem mapM_idnaLabel_ofChars {labels : List (List Char)} :
    (labels.map ofChars).mapM (idnaLabel text) =
      (labels.mapM (DomainProcessing.idnaLabel text)).map (List.map ofChars) := by
  induction labels with
  | nil => rfl
  | cons label rest ih =>
    rw [List.map_cons, List.mapM_cons, List.mapM_cons, idnaLabel_ofChars, ih]
    cases DomainProcessing.idnaLabel text label with
    | error message => rfl
    | ok own => cases rest.mapM (DomainProcessing.idnaLabel text) <;> rfl

theorem isValidDomainLabel_ofChars : isValidDomainLabel (ofChars s) = DomainProcessing.isValidDomainLabel s := by
  have ends : ∀ o : Option Char, o.map char = some (char '-') ↔ o = some '-' := by
    intro o
    cases o <;> simp
  have length : (ofChars s).length = s.length := List.length_map char
  have inside : (ofChars s).all (within isLabelChar) = s.all isLabelChar := List.all_map
  unfold isValidDomainLabel DomainProcessing.isValidDomainLabel
  rw [inside, length]
  simp only [ofChars_eq_nil]
  unfold ofChars
  simp only [List.head?_map, List.getLast?_map, ends]

theorem validateDomainSyntax_ofChars :
    validateDomainSyntax (ofChars s) = (DomainProcessing.validateDomainSyntax s).map ofString := by
  have length : (ofChars s).length = s.length := List.length_map char
  unfold validateDomainSyntax DomainProcessing.validateDomainSyntax
  simp only [ofChars_eq_nil, length, splitOn_ofChars, List.length_map, List.find?_map]
  split
  next => rfl
  next =>
    split
    next => rfl
    next =>
      split
      next => rfl
      next =>
        have labels : ((fun label => !isValidDomainLabel label) ∘ ofChars) =
            fun label => !DomainProcessing.isValidDomainLabel label := by
          funext label
          exact congrArg _ isValidDomainLabel_ofChars
        rw [labels, Option.map_map, Option.map_map]
        congr 1
        funext label
        simp only [Function.comp_apply, ofString_append, ofString_ofList]

/-- On text without surrogates the results are those of the characters. -/
theorem normalizeDomain_ofString (domain : String) :
    normalizeDomain text (ofString domain) = .ofText (DomainProcessing.normalizeDomain text domain) := by
  have stop : (fun p => p == char '.') ∘ char = (fun c => c == '.') := by
    funext c
    simp
  unfold normalizeDomain DomainProcessing.normalizeDomain
  simp only [ofString, strip_ofChars, hostPart_ofChars, lower_ofChars, rdropWhile_ofChars, stop, ofChars_eq_nil,
    splitOn_ofChars, mapM_idnaLabel_ofChars]
  split
  next => rfl
  next =>
    split
    next => rfl
    next =>
      cases ((text.lower (DomainProcessing.hostPart (DomainProcessing.strip domain.toList))).rdropWhile
          (· == '.')).splitOn '.' |>.mapM (DomainProcessing.idnaLabel text) with
      | error message => simp [Except.map, PyNormalizedDomain.ofText, ofString]
      | ok labels =>
        simp only [Except.map, intercalate_ofChars, validateDomainSyntax_ofChars]
        cases DomainProcessing.validateDomainSyntax (['.'].intercalate labels) with
        | none => simp [PyNormalizedDomain.ofText, ofString]
        | some error => simp [PyNormalizedDomain.ofText, ofString]

theorem exists_ofChars {s : PyStr} (h : ∀ p ∈ s, ∃ c, p = char c) : ∃ v, s = ofChars v := by
  induction s with
  | nil => exact ⟨[], rfl⟩
  | cons p rest ih =>
    obtain ⟨⟨c, rfl⟩, others⟩ := List.forall_mem_cons.mp h
    obtain ⟨v, rfl⟩ := ih others
    exact ⟨c :: v, rfl⟩

theorem exists_char_of_within {p : Char → Bool} {q : CodePoint} (h : q.within p = true) : ∃ c, q = char c := by
  cases q with
  | char c => exact ⟨c, rfl⟩
  | surrogate _ => cases h

theorem all_of_isValidDomainLabel {label : PyStr} (h : isValidDomainLabel label = true) :
    ∀ p ∈ label, p.within isLabelChar = true := by
  unfold isValidDomainLabel at h
  split at h
  next => cases h
  next =>
    split at h
    next => cases h
    next =>
      split at h
      next => cases h
      next => exact List.all_eq_true.mp h

/-- There are no surrogates in a hostname. -/
theorem exists_chars_of_syntax {s : PyStr} (h : validateDomainSyntax s = none) : ∃ v, s = ofChars v := by
  unfold validateDomainSyntax at h
  split at h
  next => cases h
  next =>
    split at h
    next => cases h
    next =>
      dsimp only at h
      split at h
      next => cases h
      next =>
        rw [Option.map_eq_none_iff, List.find?_eq_none] at h
        refine exists_ofChars fun p hp => ?_
        rcases mem_splitOn (a := char '.') hp with dot | ⟨label, hl, inside⟩
        · exact ⟨'.', dot⟩
        · have valid : isValidDomainLabel label = true := by simpa using h label hl
          exact exists_char_of_within (all_of_isValidDomainLabel valid p inside)

theorem normalizeDomain_valid {domain : PyStr} (h : (normalizeDomain text domain).isValid = true) :
    ∃ v, DomainProcessing.validateDomainSyntax v = none ∧
      normalizeDomain text domain = .ofText ⟨String.ofList v, true, none⟩ := by
  revert h
  unfold normalizeDomain
  dsimp only
  split
  next => simp
  next =>
    split
    next => simp
    next =>
      split
      next => simp
      next labels _ =>
        split
        next => simp
        next hv =>
          intro _
          obtain ⟨v, same⟩ := exists_chars_of_syntax hv
          rw [same] at hv ⊢
          rw [validateDomainSyntax_ofChars, Option.map_eq_none_iff] at hv
          refine ⟨v, hv, ?_⟩
          unfold PyNormalizedDomain.ofText
          rw [ofString_ofList]
          rfl

end Characters

end PyStr

end DomainProcessing
