import DomainProcessing.Ingestion
import Mathlib.Data.List.DropRight

namespace DomainProcessing

def isAscii (c : Char) : Bool := decide (c.toNat < 128)

/-- How the `idna` codec may fail; the code treats the two apart. -/
inductive IdnaFailure
  | unicodeError
  | other (message : String)
  deriving DecidableEq, Repr

/-- `str.lower` and the `idna` codec of the standard library. Only what they do
to ASCII text is fixed. -/
structure PythonText where
  lower : List Char → List Char
  idna : List Char → Except IdnaFailure (List Char)
  lower_ascii : ∀ {s : List Char}, (∀ c ∈ s, isAscii c) → lower s = s.map Char.toLower
  idna_ascii : ∀ {label : List Char}, label ≠ [] → label.length ≤ 63 → (∀ c ∈ label, isAscii c) →
    idna label = .ok label

/-- `str.isspace` -/
def isSpace (c : Char) : Bool :=
  let n := c.toNat
  (9 ≤ n && n ≤ 13) || (28 ≤ n && n ≤ 32) || n == 0x85 || n == 0xa0 || n == 0x1680 ||
    (0x2000 ≤ n && n ≤ 0x200a) || n == 0x2028 || n == 0x2029 || n == 0x202f || n == 0x205f ||
    n == 0x3000

def strip (s : List Char) : List Char := (s.dropWhile isSpace).rdropWhile isSpace

/-- `[a-z0-9-]` -/
def isLabelChar (c : Char) : Bool := c.isLower || c.isDigit || c == '-'

def isValidDomainLabel (label : List Char) : Bool :=
  if label = [] then false
  else if label.length > 63 then false
  else if label.head? = some '-' ∨ label.getLast? = some '-' then false
  else label.all isLabelChar

/-- The error, or `none` for a valid domain. -/
def validateDomainSyntax (domain : List Char) : Option String :=
  if domain = [] then some "empty domain"
  else if domain.length > 253 then some "domain too long"
  else
    let labels := domain.splitOn '.'
    if labels.length < 2 then some "domain must have at least two labels"
    else
      (labels.find? fun label => !isValidDomainLabel label).map fun label =>
        "invalid label: " ++ String.ofList label

/-- `[a-zA-Z0-9+.-]` -/
def isSchemeChar (c : Char) : Bool := c.isAlphanum || c == '+' || c == '.' || c == '-'

/-- What follows a match of `^[a-zA-Z][a-zA-Z0-9+.-]*://`. -/
def afterScheme : List Char → Option (List Char)
  | [] => none
  | c :: rest =>
    if c.isAlpha then
      match rest.dropWhile isSchemeChar with
      | ':' :: '/' :: '/' :: tail => some tail
      | _ => none
    else none

/-- `s.split(sep)[0]` -/
def before (sep : Char) (s : List Char) : List Char := s.takeWhile (· ≠ sep)

def hostPart (s : List Char) : List Char :=
  match afterScheme s with
  | none => s
  | some tail => before ':' (before '#' (before '?' (before '/' tail)))

/-- A label as its encoding, or as it is when the codec raises `UnicodeError`. -/
def idnaLabel (text : PythonText) (label : List Char) : Except String (List Char) :=
  match text.idna label with
  | .ok encoded => .ok encoded
  | .error .unicodeError => .ok label
  | .error (.other message) => .error message

def normalizeDomain (text : PythonText) (domain : String) : NormalizedDomain :=
  let trimmed := strip domain.toList
  if trimmed = [] then ⟨"", false, some "empty domain after whitespace trimming"⟩
  else
    let lowered := (text.lower (hostPart trimmed)).rdropWhile (· == '.')
    if lowered = [] then ⟨"", false, some "empty domain after normalization"⟩
    else
      match (lowered.splitOn '.').mapM (idnaLabel text) with
      | .error message => ⟨String.ofList lowered, false, some ("IDNA encoding failed: " ++ message)⟩
      | .ok labels =>
        let normalized := ['.'].intercalate labels
        match validateDomainSyntax normalized with
        | some error => ⟨String.ofList normalized, false, some error⟩
        | none => ⟨String.ofList normalized, true, none⟩

/-- The value two entries share when they count as one. -/
def dedupKey (text : PythonText) (domain : String) : String :=
  let result := normalizeDomain text domain
  if result.isValid then result.value
  else "__invalid__" ++ String.ofList (text.lower (strip domain.toList))

def deduplicateFrom (text : PythonText) : List String → List String → List String
  | _, [] => []
  | seen, domain :: rest =>
    let key := dedupKey text domain
    if key ∈ seen then deduplicateFrom text seen rest
    else
      (if (normalizeDomain text domain).isValid then key else domain) ::
        deduplicateFrom text (key :: seen) rest

def deduplicateDomains (text : PythonText) (domains : List String) : List String :=
  deduplicateFrom text [] domains

/-- The characters of a syntactically valid domain. -/
def isHostChar (c : Char) : Bool := isLabelChar c || c == '.'

theorem isHostChar_cases {c : Char} (h : isHostChar c) :
    (97 ≤ c.toNat ∧ c.toNat ≤ 122) ∨ (48 ≤ c.toNat ∧ c.toNat ≤ 57) ∨ c.toNat = 45 ∨ c.toNat = 46 := by
  have lower : c.isLower = (decide (97 ≤ c.val) && decide (c.val ≤ 122)) := rfl
  simp only [isHostChar, isLabelChar, lower, Char.isDigit, Bool.or_eq_true, Bool.and_eq_true,
    decide_eq_true_eq, beq_iff_eq, ge_iff_le, UInt32.le_iff_toNat_le] at h
  rcases h with ((h | h) | rfl) | rfl
  · exact Or.inl h
  · exact Or.inr (Or.inl h)
  · decide
  · decide

theorem isHostChar_ascii {c : Char} (h : isHostChar c) : isAscii c := by
  have := isHostChar_cases h
  simp only [isAscii, decide_eq_true_eq]
  omega

theorem isHostChar_not_space {c : Char} (h : isHostChar c) : isSpace c = false := by
  have := isHostChar_cases h
  simp only [isSpace, Bool.or_eq_false_iff, Bool.and_eq_false_iff, decide_eq_false_iff_not,
    beq_eq_false_iff_ne]
  omega

theorem isHostChar_toLower {c : Char} (h : isHostChar c) : c.toLower = c := by
  have bounds := isHostChar_cases h
  unfold Char.toLower
  rw [dif_neg]
  simp only [ge_iff_le, UInt32.le_iff_toNat_le, not_and, not_le]
  intro hc
  change 65 ≤ c.toNat at hc
  change 90 < c.toNat
  omega

theorem isHostChar_ne_colon {c : Char} (h : isHostChar c) : c ≠ ':' := by
  rintro rfl
  exact absurd h (by decide)

theorem mem_splitOn {α : Type*} [BEq α] [LawfulBEq α] {a c : α} {s : List α} (h : c ∈ s) :
    c = a ∨ ∃ l ∈ s.splitOn a, c ∈ l := by
  induction s with
  | nil => simp at h
  | cons x rest ih =>
    rw [List.splitOn_cons_eq_if_modifyHead]
    by_cases hx : x = a
    · rw [if_pos (by simpa using hx)]
      rcases List.mem_cons.mp h with rfl | h
      · exact Or.inl hx
      · exact (ih h).imp_right fun ⟨l, hl, hc⟩ => ⟨l, List.mem_cons_of_mem _ hl, hc⟩
    · rw [if_neg (by simpa using hx)]
      obtain ⟨first, others, hs⟩ := List.exists_cons_of_ne_nil (List.splitOn_ne_nil a rest)
      rw [hs, List.modifyHead_cons]
      rcases List.mem_cons.mp h with rfl | h
      · exact Or.inr ⟨_, List.mem_cons_self, List.mem_cons_self⟩
      · refine (ih h).imp_right ?_
        rintro ⟨l, hl, hc⟩
        rcases List.mem_cons.mp (hs ▸ hl) with rfl | hl
        · exact ⟨_, List.mem_cons_self, List.mem_cons_of_mem _ hc⟩
        · exact ⟨l, List.mem_cons_of_mem _ hl, hc⟩

theorem isValidDomainLabel_iff {label : List Char} : isValidDomainLabel label ↔
    label ≠ [] ∧ label.length ≤ 63 ∧ label.head? ≠ some '-' ∧ label.getLast? ≠ some '-' ∧
      ∀ c ∈ label, isLabelChar c := by
  unfold isValidDomainLabel
  split
  next h => simp [h]
  next h =>
    split
    next hl => simp only [Bool.false_eq_true, false_iff]; omega
    next hl =>
      split
      next hd => simp only [Bool.false_eq_true, false_iff]; tauto
      next hd =>
        obtain ⟨first, last⟩ := not_or.mp hd
        simp [h, Nat.le_of_not_lt hl, first, last]

theorem validateDomainSyntax_eq_none_iff {v : List Char} : validateDomainSyntax v = none ↔
    v ≠ [] ∧ v.length ≤ 253 ∧ 2 ≤ (v.splitOn '.').length ∧
      ∀ label ∈ v.splitOn '.', isValidDomainLabel label := by
  unfold validateDomainSyntax
  split
  next h => simp [h]
  next h =>
    split
    next hl => simp only [reduceCtorEq, false_iff]; omega
    next hl =>
      dsimp only
      split
      next hd => simp only [reduceCtorEq, false_iff]; omega
      next hd =>
        have labels := Nat.le_of_not_lt hd
        have short := Nat.le_of_not_lt hl
        simp [h, short, labels, List.find?_eq_none]

theorem isHostChar_of_syntax {v : List Char} (h : validateDomainSyntax v = none) :
    ∀ c ∈ v, isHostChar c := by
  obtain ⟨_, _, _, labels⟩ := validateDomainSyntax_eq_none_iff.mp h
  intro c hc
  rcases mem_splitOn (a := '.') hc with rfl | ⟨l, hl, hc⟩
  · decide
  · have := (isValidDomainLabel_iff.mp (labels l hl)).2.2.2.2 c hc
    simp [isHostChar, this]

theorem strip_of_hostChars {v : List Char} (h : ∀ c ∈ v, isHostChar c) : strip v = v := by
  have front : v.dropWhile isSpace = v := by
    rw [List.dropWhile_eq_self_iff]
    intro hl
    simp [isHostChar_not_space (h _ (List.getElem_mem hl))]
  unfold strip
  rw [front, List.rdropWhile_eq_self_iff]
  intro hl
  simp [isHostChar_not_space (h _ (List.getLast_mem hl))]

theorem afterScheme_of_colonless {v : List Char} (h : ':' ∉ v) : afterScheme v = none := by
  cases v with
  | nil => rfl
  | cons c rest =>
    rw [afterScheme]
    split
    next =>
      split
      next tail hd =>
        have colon : ':' ∈ rest := by
          have := List.dropWhile_sublist isSchemeChar (l := rest)
          exact this.subset (hd ▸ List.mem_cons_self)
        exact absurd (List.mem_cons_of_mem _ colon) h
      next => rfl
    next => rfl

theorem hostPart_of_colonless {v : List Char} (h : ':' ∉ v) : hostPart v = v := by
  simp [hostPart, afterScheme_of_colonless h]

theorem lower_of_hostChars (text : PythonText) {v : List Char} (h : ∀ c ∈ v, isHostChar c) :
    text.lower v = v := by
  rw [text.lower_ascii fun c hc => isHostChar_ascii (h c hc)]
  exact (List.map_congr_left fun c hc => isHostChar_toLower (h c hc)).trans (List.map_id v)

theorem rstrip_of_syntax {v : List Char} (h : validateDomainSyntax v = none) :
    v.rdropWhile (· == '.') = v := by
  obtain ⟨_, _, _, labels⟩ := validateDomainSyntax_eq_none_iff.mp h
  rw [List.rdropWhile_eq_self_iff]
  intro hl hdot
  have last : v.getLast hl = '.' := by simpa using hdot
  have split : v.splitOn '.' = v.dropLast.splitOn '.' ++ [[]] := by
    conv_lhs => rw [← List.dropLast_append_getLast hl, last]
    exact List.splitOn_append_cons_of_beq _ _ (beq_self_eq_true '.')
  have empty := labels [] (by simp [split])
  exact (isValidDomainLabel_iff.mp empty).1 rfl

theorem idnaLabel_of_valid (text : PythonText) {label : List Char} (h : isValidDomainLabel label) :
    idnaLabel text label = .ok label := by
  obtain ⟨ne, short, _, _, chars⟩ := isValidDomainLabel_iff.mp h
  have ascii : ∀ c ∈ label, isAscii c := by
    intro c hc
    apply isHostChar_ascii
    simp [isHostChar, chars c hc]
  unfold idnaLabel
  rw [text.idna_ascii ne short ascii]

theorem mapM_idnaLabel (text : PythonText) {labels : List (List Char)}
    (h : ∀ label ∈ labels, isValidDomainLabel label) :
    labels.mapM (idnaLabel text) = .ok labels := by
  induction labels with
  | nil => rfl
  | cons label rest ih =>
    obtain ⟨hl, hr⟩ := List.forall_mem_cons.mp h
    rw [List.mapM_cons, idnaLabel_of_valid text hl, ih hr]
    rfl

/-- The end of the normalisation, for a host that is a hostname. -/
theorem normalizeDomain_of_host (text : PythonText) {domain : String} {v : List Char}
    (trimmed : strip domain.toList ≠ [])
    (host : (text.lower (hostPart (strip domain.toList))).rdropWhile (· == '.') = v)
    (h : validateDomainSyntax v = none) :
    normalizeDomain text domain = ⟨String.ofList v, true, none⟩ := by
  obtain ⟨ne, _, _, labels⟩ := validateDomainSyntax_eq_none_iff.mp h
  unfold normalizeDomain
  simp only [host, if_neg trimmed, if_neg ne, mapM_idnaLabel text labels]
  rw [List.intercalate_splitOn, h]

theorem normalizeDomain_of_syntax (text : PythonText) {v : List Char}
    (h : validateDomainSyntax v = none) :
    normalizeDomain text (String.ofList v) = ⟨String.ofList v, true, none⟩ := by
  have chars := isHostChar_of_syntax h
  have trimmed : strip (String.ofList v).toList = v := by
    rw [String.toList_ofList, strip_of_hostChars chars]
  have colonless : ':' ∉ v := fun colon => isHostChar_ne_colon (chars _ colon) rfl
  refine normalizeDomain_of_host text ?_ ?_ h
  · rw [trimmed]
    exact (validateDomainSyntax_eq_none_iff.mp h).1
  · rw [trimmed, hostPart_of_colonless colonless, lower_of_hostChars text chars, rstrip_of_syntax h]

theorem normalizeDomain_valid {text : PythonText} {domain : String}
    (h : (normalizeDomain text domain).isValid) :
    ∃ v, validateDomainSyntax v = none ∧
      normalizeDomain text domain = ⟨String.ofList v, true, none⟩ := by
  revert h
  unfold normalizeDomain
  dsimp only
  split
  next => simp
  next =>
    split
    next => simp
    next =>
      split
      next => simp
      next labels _ =>
        split
        next => simp
        next hv => exact fun _ => ⟨_, hv, rfl⟩

/-- Normalising the value of a valid result gives the same result. -/
theorem normalizeDomain_value {text : PythonText} {domain : String}
    (h : (normalizeDomain text domain).isValid) :
    normalizeDomain text (normalizeDomain text domain).value = normalizeDomain text domain := by
  obtain ⟨v, hv, he⟩ := normalizeDomain_valid h
  rw [he]
  exact normalizeDomain_of_syntax text hv

/-- 1 to 63 characters of `a`-`z`, `0`-`9` and `-`, with no `-` at either end. -/
structure HostnameLabel (label : List Char) : Prop where
  nonempty : 1 ≤ label.length
  short : label.length ≤ 63
  chars : ∀ c ∈ label, ('a' ≤ c ∧ c ≤ 'z') ∨ ('0' ≤ c ∧ c ≤ '9') ∨ c = '-'
  first : label.head? ≠ some '-'
  last : label.getLast? ≠ some '-'

/-- Two or more labels joined by dots, 253 characters at most. -/
def Hostname (s : List Char) : Prop :=
  s.length ≤ 253 ∧ ∃ labels : List (List Char), 2 ≤ labels.length ∧ s = ['.'].intercalate labels ∧
    ∀ label ∈ labels, HostnameLabel label

theorem isLabelChar_iff {c : Char} :
    isLabelChar c ↔ ('a' ≤ c ∧ c ≤ 'z') ∨ ('0' ≤ c ∧ c ≤ '9') ∨ c = '-' := by
  have lower : c.isLower = (decide ('a' ≤ c) && decide (c ≤ 'z')) := rfl
  have digit : c.isDigit = (decide ('0' ≤ c) && decide (c ≤ '9')) := rfl
  simp only [isLabelChar, lower, digit, Bool.or_eq_true, Bool.and_eq_true, decide_eq_true_eq, beq_iff_eq]
  exact or_assoc

theorem isValidDomainLabel_iff_hostnameLabel {label : List Char} :
    isValidDomainLabel label ↔ HostnameLabel label := by
  rw [isValidDomainLabel_iff]
  constructor
  · rintro ⟨ne, short, first, last, chars⟩
    exact ⟨List.length_pos_iff.mpr ne, short, fun c hc => isLabelChar_iff.mp (chars c hc), first, last⟩
  · intro h
    exact ⟨List.length_pos_iff.mp h.nonempty, h.short, h.first, h.last,
      fun c hc => isLabelChar_iff.mpr (h.chars c hc)⟩

/-- A label has no dots, so that splitting a hostname gives its labels back. -/
theorem HostnameLabel.dotless {label : List Char} (h : HostnameLabel label) : '.' ∉ label := by
  intro dot
  exact absurd (isLabelChar_iff.mpr (h.chars '.' dot)) (by decide)

/-- The validation accepts the grammar and nothing else. -/
theorem validateDomainSyntax_eq_none_iff_hostname {v : List Char} :
    validateDomainSyntax v = none ↔ Hostname v := by
  rw [validateDomainSyntax_eq_none_iff]
  constructor
  · rintro ⟨_, short, two, labels⟩
    refine ⟨short, v.splitOn '.', two, (List.intercalate_splitOn '.').symm, ?_⟩
    intro label hl
    exact isValidDomainLabel_iff_hostnameLabel.mp (labels label hl)
  · rintro ⟨short, labels, two, rfl, grammar⟩
    have dotless : ∀ label ∈ labels, '.' ∉ label := fun label hl => (grammar label hl).dotless
    have some_label : labels ≠ [] := List.length_pos_iff.mp (by omega)
    have split := List.splitOn_intercalate '.' dotless some_label
    refine ⟨?_, short, by rwa [split], ?_⟩
    · intro empty
      rw [empty] at split
      rw [← split] at two
      exact absurd two (by decide)
    · intro label hl
      rw [split] at hl
      exact isValidDomainLabel_iff_hostnameLabel.mpr (grammar label hl)

/-- The valid values are the hostnames, and each of them is its own normal form. -/
theorem normalizeDomain_fixpoint (text : PythonText) :
    (∀ s : String, (normalizeDomain text s).isValid →
      Hostname (normalizeDomain text s).value.toList ∧
        normalizeDomain text (normalizeDomain text s).value = ⟨(normalizeDomain text s).value, true, none⟩) ∧
    ∀ v : String, Hostname v.toList → normalizeDomain text v = ⟨v, true, none⟩ := by
  constructor
  · intro s valid
    obtain ⟨v, hv, he⟩ := normalizeDomain_valid valid
    rw [normalizeDomain_value valid, he, String.toList_ofList]
    exact ⟨validateDomainSyntax_eq_none_iff_hostname.mp hv, rfl⟩
  · intro v grammar
    have normal := normalizeDomain_of_syntax text (validateDomainSyntax_eq_none_iff_hostname.mpr grammar)
    rwa [String.ofList_toList] at normal

/-- The standard library on ASCII text. -/
def asciiText : PythonText where
  lower s := s.map Char.toLower
  idna label := if label.all isAscii then .ok label else .error .unicodeError
  lower_ascii _ := rfl
  idna_ascii _ _ h := if_pos (List.all_eq_true.mpr h)

theorem normalizeDomain_fixpoint_respelled :
    Hostname (normalizeDomain asciiText " Http://B.a./x").value.toList ∧
      normalizeDomain asciiText (normalizeDomain asciiText " Http://B.a./x").value =
        ⟨(normalizeDomain asciiText " Http://B.a./x").value, true, none⟩ := by
  have valid : (normalizeDomain asciiText " Http://B.a./x").isValid = true := by decide +kernel
  exact (normalizeDomain_fixpoint asciiText).1 _ valid

section Dedup

variable {text : PythonText} {seen domains : List String}

theorem deduplicateFrom_fixed {d : String} (fixed : normalizeDomain text d = ⟨d, true, none⟩) :
    deduplicateFrom text seen (d :: domains) =
      if d ∈ seen then deduplicateFrom text seen domains
      else d :: deduplicateFrom text (d :: seen) domains := by
  have key : dedupKey text d = d := by simp [dedupKey, fixed]
  rw [deduplicateFrom]
  simp only [key, fixed, ↓reduceIte]

theorem mem_deduplicateFrom (fixed : ∀ d ∈ domains, normalizeDomain text d = ⟨d, true, none⟩)
    {v : String} : v ∈ deduplicateFrom text seen domains ↔ v ∈ domains ∧ v ∉ seen := by
  induction domains generalizing seen with
  | nil => simp [deduplicateFrom]
  | cons d rest ih =>
    obtain ⟨hd, hrest⟩ := List.forall_mem_cons.mp fixed
    rw [deduplicateFrom_fixed hd]
    split
    next hs =>
      rw [ih hrest, List.mem_cons]
      constructor
      · exact fun ⟨hv, hn⟩ => ⟨Or.inr hv, hn⟩
      · rintro ⟨rfl | hv, hn⟩
        · exact absurd hs hn
        · exact ⟨hv, hn⟩
    next hs =>
      rw [List.mem_cons, ih hrest, List.mem_cons, List.mem_cons]
      constructor
      · rintro (rfl | ⟨hv, hn⟩)
        · exact ⟨Or.inl rfl, hs⟩
        · exact ⟨Or.inr hv, fun h => hn (Or.inr h)⟩
      · rintro ⟨rfl | hv, hn⟩
        · exact Or.inl rfl
        · by_cases he : v = d
          · exact Or.inl he
          · exact Or.inr ⟨hv, fun h => h.elim he hn⟩

theorem deduplicateFrom_nodup (fixed : ∀ d ∈ domains, normalizeDomain text d = ⟨d, true, none⟩) :
    (deduplicateFrom text seen domains).Nodup := by
  induction domains generalizing seen with
  | nil => exact List.nodup_nil
  | cons d rest ih =>
    obtain ⟨hd, hrest⟩ := List.forall_mem_cons.mp fixed
    rw [deduplicateFrom_fixed hd]
    split
    next => exact ih hrest
    next =>
      rw [List.nodup_cons, mem_deduplicateFrom hrest]
      exact ⟨fun h => h.2 List.mem_cons_self, ih hrest⟩

end Dedup

end DomainProcessing
