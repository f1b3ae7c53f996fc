import DomainProcessing.Normalization

namespace DomainProcessing

theorem rdropWhile_append_cons {α : Type*} {p : α → Bool} {d : α} (h : ¬p d) (front back : List α) :
    (front ++ d :: back).rdropWhile p = front ++ d :: back.rdropWhile p := by
  induction back using List.reverseRecOn with
  | nil => exact List.rdropWhile_concat_neg p front d h
  | append_singleton rest last ih =>
    rw [← List.cons_append, ← List.append_assoc]
    by_cases hl : p last
    · rw [List.rdropWhile_concat_pos _ _ _ hl, List.rdropWhile_concat_pos _ _ _ hl, ih]
    · rw [List.rdropWhile_concat_neg _ _ _ hl, List.rdropWhile_concat_neg _ _ _ hl, List.append_assoc,
        List.cons_append]

theorem strip_surrounded {front text back init tail : List Char} {first last : Char}
    (spaces : ∀ c ∈ front, isSpace c) (ends : text = init ++ last :: tail) (closing : isSpace last = false)
    (starts : text.head? = some first) (opening : isSpace first = false) :
    strip (front ++ text ++ back) = init ++ last :: (tail ++ back).rdropWhile isSpace := by
  obtain ⟨inner, whole⟩ := List.head?_eq_some_iff.mp starts
  have trimmed : (front ++ text ++ back).dropWhile isSpace = text ++ back := by
    rw [List.append_assoc, List.dropWhile_append_of_pos spaces, whole, List.cons_append,
      List.dropWhile_cons_of_neg (by simp [opening])]
  unfold strip
  rw [trimmed, ends, List.append_assoc, List.cons_append]
  exact rdropWhile_append_cons (by simp [closing]) init (tail ++ back)

theorem before_append {sep : Char} {name : List Char} (h : sep ∉ name) (rest : List Char) :
    before sep (name ++ rest) = name ++ before sep rest := by
  unfold before
  refine List.takeWhile_append_of_pos ?_
  intro c hc
  rw [decide_eq_true_eq]
  rintro rfl
  exact h hc

theorem before_cons_self (sep : Char) (rest : List Char) : before sep (sep :: rest) = [] := by
  simp [before]

theorem before_cons_of_ne {sep c : Char} (h : c ≠ sep) (rest : List Char) :
    before sep (c :: rest) = c :: before sep rest := by
  simp [before, h]

/-- `[a-zA-Z][a-zA-Z0-9+.-]*` -/
def IsScheme (scheme : List Char) : Prop :=
  ∃ first others, scheme = first :: others ∧ first.isAlpha = true ∧ ∀ c ∈ others, isSchemeChar c = true

theorem afterScheme_of_scheme {scheme : List Char} (h : IsScheme scheme) (tail : List Char) :
    afterScheme (scheme ++ (':' :: '/' :: '/' :: tail)) = some tail := by
  obtain ⟨first, others, rfl, letter, chars⟩ := h
  have rest : (others ++ ':' :: '/' :: '/' :: tail).dropWhile isSchemeChar = ':' :: '/' :: '/' :: tail := by
    rw [List.dropWhile_append_of_pos chars, List.dropWhile_cons_of_neg (by decide)]
  rw [List.cons_append, afterScheme, if_pos letter, rest]
  rfl

/-- What may follow the host in a URL. -/
def EndsHost (rest : List Char) : Prop :=
  rest = [] ∨ ∃ c tail, rest = c :: tail ∧ c ∈ ['/', '?', '#', ':']

theorem hostPart_of_url {scheme name rest : List Char} (hs : IsScheme scheme)
    (plain : ∀ c ∈ ['/', '?', '#', ':'], c ∉ name) (ends : EndsHost rest) :
    hostPart (scheme ++ (':' :: '/' :: '/' :: (name ++ rest))) = name := by
  have slash : '/' ∉ name := plain _ (by decide)
  have query : '?' ∉ name := plain _ (by decide)
  have hash : '#' ∉ name := plain _ (by decide)
  have colon : ':' ∉ name := plain _ (by decide)
  have cut : before ':' (before '#' (before '?' (before '/' rest))) = [] := by
    rcases ends with rfl | ⟨c, tail, rfl, hc⟩
    · rfl
    · rcases List.mem_cons.mp hc with rfl | hc
      · rw [before_cons_self]
        rfl
      · rw [before_cons_of_ne (by rintro rfl; simp at hc)]
        rcases List.mem_cons.mp hc with rfl | hc
        · rw [before_cons_self]
          rfl
        · rw [before_cons_of_ne (by rintro rfl; simp at hc)]
          rcases List.mem_cons.mp hc with rfl | hc
          · rw [before_cons_self]
            rfl
          · rw [before_cons_of_ne (by rintro rfl; simp at hc), List.mem_singleton.mp hc, before_cons_self]
  unfold hostPart
  rw [afterScheme_of_scheme hs]
  simp only [before_append slash, before_append query, before_append hash, before_append colon, cut,
    List.append_nil]

theorem toLower_cases (c : Char) : (65 ≤ c.toNat ∧ c.toNat ≤ 90) ∨ c.toLower = c := by
  unfold Char.toLower
  split
  next upper =>
    simp only [ge_iff_le, UInt32.le_iff_toNat_le] at upper
    exact Or.inl upper
  next => exact Or.inr rfl

section NameChar

variable {c : Char}

theorem nameChar_ascii (h : isHostChar c.toLower) : isAscii c := by
  rcases toLower_cases c with upper | same
  · simp only [isAscii, decide_eq_true_eq]
    omega
  · exact isHostChar_ascii (same ▸ h)

theorem nameChar_not_space (h : isHostChar c.toLower) : isSpace c = false := by
  rcases toLower_cases c with upper | same
  · simp only [isSpace, Bool.or_eq_false_iff, Bool.and_eq_false_iff, decide_eq_false_iff_not,
      beq_eq_false_iff_ne]
    omega
  · exact isHostChar_not_space (same ▸ h)

theorem nameChar_plain (h : isHostChar c.toLower) : c ∉ ['/', '?', '#', ':'] := by
  intro hc
  have shown : ['/', '?', '#', ':'].all (fun d => !isHostChar d.toLower) = true := by decide
  have unlike := List.all_eq_true.mp shown c hc
  simp [h] at unlike

theorem alpha_not_space (h : c.isAlpha = true) : isSpace c = false := by
  have letter : c.isAlpha = (decide (65 ≤ c.val ∧ c.val ≤ 90) ||
      decide (97 ≤ c.val) && decide (c.val ≤ 122)) := rfl
  have bounds : (65 ≤ c.toNat ∧ c.toNat ≤ 90) ∨ (97 ≤ c.toNat ∧ c.toNat ≤ 122) := by
    simp only [letter, Bool.or_eq_true, Bool.and_eq_true, decide_eq_true_eq,
      UInt32.le_iff_toNat_le] at h
    exact h
  simp only [isSpace, Bool.or_eq_false_iff, Bool.and_eq_false_iff, decide_eq_false_iff_not,
    beq_eq_false_iff_ne]
  omega

end NameChar

/-- A hostname in either case with any number of dots after it. -/
structure Spells (name h : List Char) : Prop where
  hostname : Hostname h
  letters : ∃ dots, name.map Char.toLower = h ++ List.replicate dots '.'

section Names

variable {name h : List Char}

theorem Spells.chars (s : Spells name h) : ∀ c ∈ name, isHostChar c.toLower := by
  obtain ⟨hostname, dots, letters⟩ := s
  intro c hc
  have lowered : c.toLower ∈ h ++ List.replicate dots '.' := letters ▸ List.mem_map_of_mem hc
  rcases List.mem_append.mp lowered with inHost | dot
  · exact isHostChar_of_syntax (validateDomainSyntax_eq_none_iff_hostname.mpr hostname) _ inHost
  · rw [List.eq_of_mem_replicate dot]
    decide

theorem Spells.ne_nil (s : Spells name h) : name ≠ [] := by
  obtain ⟨hostname, dots, letters⟩ := s
  rintro rfl
  have syntaxOk := validateDomainSyntax_eq_none_iff_hostname.mpr hostname
  have empty := (List.append_eq_nil_iff.mp letters.symm).1
  exact (validateDomainSyntax_eq_none_iff.mp syntaxOk).1 empty

theorem rdropWhile_replicate {α : Type*} {p : α → Bool} {d : α} (h : p d) (xs : List α) (n : Nat) :
    (xs ++ List.replicate n d).rdropWhile p = xs.rdropWhile p := by
  induction n with
  | zero => rw [List.replicate_zero, List.append_nil]
  | succ n ih => rw [List.replicate_succ', ← List.append_assoc, List.rdropWhile_concat_pos _ _ _ h, ih]

theorem Spells.lowered (s : Spells name h) (text : PythonText) :
    (text.lower name).rdropWhile (· == '.') = h := by
  have ascii : ∀ c ∈ name, isAscii c := fun c hc => nameChar_ascii (s.chars c hc)
  obtain ⟨hostname, dots, letters⟩ := s
  have syntaxOk := validateDomainSyntax_eq_none_iff_hostname.mpr hostname
  rw [text.lower_ascii ascii, letters, rdropWhile_replicate (by decide), rstrip_of_syntax syntaxOk]

theorem Spells.last (s : Spells name h) : ∃ init last, name = init ++ [last] ∧ isSpace last = false := by
  obtain ⟨init, last, rfl⟩ := (List.eq_nil_or_concat' name).resolve_left s.ne_nil
  exact ⟨init, last, rfl, nameChar_not_space (s.chars last (by simp))⟩

theorem Spells.of_case {spelling : List Char} (hostname : Hostname h)
    (letters : spelling.map Char.toLower = h) (dots : Nat) :
    Spells (spelling ++ List.replicate dots '.') h := by
  refine ⟨hostname, dots, ?_⟩
  rw [List.map_append, letters, List.map_replicate]
  rfl

end Names

section Trimmed

variable {name h front back : List Char}

theorem rdropWhile_spaces (spaces : ∀ c ∈ back, isSpace c) : back.rdropWhile isSpace = [] :=
  List.rdropWhile_eq_nil_iff.mpr spaces

theorem strip_name (s : Spells name h) (frontSpaces : ∀ c ∈ front, isSpace c)
    (backSpaces : ∀ c ∈ back, isSpace c) : strip (front ++ name ++ back) = name := by
  obtain ⟨first, inner, whole⟩ := List.exists_cons_of_ne_nil s.ne_nil
  have starts : name.head? = some first := by rw [whole, List.head?_cons]
  have opening : isSpace first = false := nameChar_not_space (s.chars first (by simp [whole]))
  obtain ⟨init, last, ends, closing⟩ := s.last
  rw [strip_surrounded frontSpaces ends closing starts opening, List.nil_append,
    rdropWhile_spaces backSpaces, ends]

/-- Trimming a URL may take spaces off its end, none of them before the end of
the host. -/
theorem strip_url {scheme rest : List Char} (s : Spells name h) (hs : IsScheme scheme) (ends : EndsHost rest)
    (frontSpaces : ∀ c ∈ front, isSpace c) (backSpaces : ∀ c ∈ back, isSpace c) :
    ∃ rest', EndsHost rest' ∧
      strip (front ++ (scheme ++ (':' :: '/' :: '/' :: (name ++ rest))) ++ back) =
        scheme ++ (':' :: '/' :: '/' :: (name ++ rest')) := by
  obtain ⟨first, others, rfl, letter, _⟩ := hs
  have opening : isSpace first = false := alpha_not_space letter
  rcases ends with rfl | ⟨c, tail, rfl, hc⟩
  · obtain ⟨init, last, named, closing⟩ := s.last
    refine ⟨[], Or.inl rfl, ?_⟩
    have ends : first :: others ++ (':' :: '/' :: '/' :: (name ++ [])) =
        (first :: others ++ (':' :: '/' :: '/' :: init)) ++ last :: [] := by
      simp [named]
    rw [strip_surrounded frontSpaces ends closing rfl opening, List.nil_append,
      rdropWhile_spaces backSpaces, ends]
  · have closing : isSpace c = false := by
      have separators : ['/', '?', '#', ':'].all (fun d => !isSpace d) = true := by decide
      simpa using List.all_eq_true.mp separators c hc
    refine ⟨c :: (tail ++ back).rdropWhile isSpace, Or.inr ⟨c, _, rfl, hc⟩, ?_⟩
    have ends : first :: others ++ (':' :: '/' :: '/' :: (name ++ c :: tail)) =
        (first :: others ++ (':' :: '/' :: '/' :: name)) ++ c :: tail := by
      simp
    rw [strip_surrounded frontSpaces ends closing rfl opening]
    simp

end Trimmed

/-- However a hostname is written, its normal form is the hostname. -/
theorem normalizeDomain_spelled (text : PythonText) {h spelling front back : List Char}
    (hostname : Hostname h) (letters : spelling.map Char.toLower = h) (dots : Nat)
    (frontSpaces : ∀ c ∈ front, isSpace c) (backSpaces : ∀ c ∈ back, isSpace c) :
    normalizeDomain text (String.ofList (front ++ (spelling ++ List.replicate dots '.') ++ back)) =
        ⟨String.ofList h, true, none⟩ ∧
      ∀ scheme rest, IsScheme scheme → EndsHost rest →
        normalizeDomain text (String.ofList
            (front ++ (scheme ++ (':' :: '/' :: '/' :: (spelling ++ List.replicate dots '.' ++ rest))) ++ back)) =
          ⟨String.ofList h, true, none⟩ := by
  have spells : Spells (spelling ++ List.replicate dots '.') h := .of_case hostname letters dots
  have syntaxOk := validateDomainSyntax_eq_none_iff_hostname.mpr hostname
  have plain : ∀ c ∈ ['/', '?', '#', ':'], c ∉ spelling ++ List.replicate dots '.' :=
    fun c hc member => nameChar_plain (spells.chars c member) hc
  constructor
  · refine normalizeDomain_of_host text ?_ ?_ syntaxOk
    · rw [String.toList_ofList, strip_name spells frontSpaces backSpaces]
      exact spells.ne_nil
    · rw [String.toList_ofList, strip_name spells frontSpaces backSpaces,
        hostPart_of_colonless (plain ':' (by decide)), spells.lowered]
  · intro scheme rest hs ends
    obtain ⟨rest', ends', trimmed⟩ := strip_url spells hs ends frontSpaces backSpaces
    refine normalizeDomain_of_host text ?_ ?_ syntaxOk
    · rw [String.toList_ofList, trimmed]
      simp
    · rw [String.toList_ofList, trimmed, hostPart_of_url hs plain ends', spells.lowered]

theorem normalizeDomain_spelled_url :
    normalizeDomain asciiText " \tB.Example..\n" = ⟨"b.example", true, none⟩ ∧
      normalizeDomain asciiText " \tHtTp+x://B.Example..:80/a://b?c #d \n" = ⟨"b.example", true, none⟩ := by
  have hostname : Hostname "b.example".toList :=
    validateDomainSyntax_eq_none_iff_hostname.mp (by decide +kernel)
  have letters : "B.Example".toList.map Char.toLower = "b.example".toList := by decide
  have spaces : (∀ c ∈ " \t".toList, isSpace c) ∧ ∀ c ∈ "\n".toList, isSpace c :=
    ⟨List.all_eq_true.mp (by decide), List.all_eq_true.mp (by decide)⟩
  have both := normalizeDomain_spelled asciiText hostname letters 2 spaces.1 spaces.2
  have scheme : IsScheme "HtTp+x".toList :=
    ⟨'H', "tTp+x".toList, by decide, by decide, List.all_eq_true.mp (by decide)⟩
  have url := both.2 "HtTp+x".toList ":80/a://b?c #d ".toList scheme
    (Or.inr ⟨':', "80/a://b?c #d ".toList, by decide, by decide⟩)
  exact ⟨both.1, url⟩

end DomainProcessing
