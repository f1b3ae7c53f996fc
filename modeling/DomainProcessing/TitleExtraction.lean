import DomainProcessing.BacktrackingRegex
import DomainProcessing.BodyReading
import DomainProcessing.PythonStrings
import DomainProcessing.Utf8

namespace DomainProcessing

open BacktrackingRegex

/-- What `re.IGNORECASE` takes for a character of the pattern, whose letters are those
of "title". -/
def ignoringCase (c d : Char) : Bool :=
  d == c || (c.isLower && d == c.toUpper) ||
    (c == 'i' && (d == Char.ofNat 0x130 || d == Char.ofNat 0x131))

/-- `<title` -/
def openTag : List (Char → Bool) := "<title".toList.map ignoringCase

/-- `</title>` -/
def closeTag : List (Char → Bool) := "</title>".toList.map ignoringCase

def notClosing (c : Char) : Bool := c != '>'

/-- `<title[^>]*>(.*?)</title>` -/
def titlePattern : Regex Char :=
  (Regex.literal openTag).seq ((Regex.greedy notClosing).seq ((Regex.char (· == '>')).seq
    ((Regex.reluctant fun _ => true).group.seq (.literal closeTag))))

/-- `ord(c) >= 32 or c in "\t\n\r"` -/
def isTitleChar (c : Char) : Bool := 32 ≤ c.toNat || c == '\t' || c == '\n' || c == '\r'

/-- What `_extract_title` makes of the text between the tags. -/
def cleanTitle (text : List Char) : Option String :=
  let title := strip text
  let title := if 500 < title.length then title.take 500 ++ "...".toList else title
  let title := title.filter isTitleChar
  if title = [] then none else some (String.ofList title)

/-- `_extract_title`. Both ways of decoding the body give the same where the first
does not fail. -/
def extractTitle (body : List UInt8) : Option String :=
  if body = [] then none
  else
    let html := Utf8.decodeReplace (body.map UInt8.toNat)
    (titlePattern.search html).bind fun titleMatch => titleMatch.group.bind cleanTitle

/-- The text up to the closing tag and what is after it, for the rest of a tag. -/
def tagBody (s : List Char) : Option (List Char × List Char) :=
  match s.dropWhile notClosing with
  | [] => none
  | _ :: body => splitLiteral closeTag body

/-- The first opening tag alone decides. -/
def scanTitle (html : List Char) : Option (List Char) :=
  (splitLiteral openTag html).bind fun parts => (tagBody parts.2).map Prod.fst

variable {s s' rest body : List Char}

theorem eq_closing {c : Char} (h : notClosing c = false) : c = '>' := by
  simpa [notClosing] using h

theorem dropWhile_notClosing {c : Char} (h : s.dropWhile notClosing = c :: body) : c = '>' := by
  have head := List.head?_dropWhile_not notClosing s
  rw [h, List.head?_cons] at head
  exact eq_closing (by simpa using head)

/-- From the rest of an opening tag on. -/
theorem head_afterTag (rest : List Char) :
    (((Regex.greedy notClosing).seq ((Regex.char (· == '>')).seq
      ((Regex.reluctant fun _ => true).group.seq (.literal closeTag)))).matchesOf rest).head? =
        (tagBody rest).map fun parts => (⟨some parts.1, parts.2⟩ : Match Char) := by
  have apart : ∀ c : Char, (c == '>') = true → notClosing c = false := by
    intro c same
    simp [notClosing, eq_of_beq same]
  rw [matchesOf_greedy_char apart, tagBody]
  cases tail : rest.dropWhile notClosing with
  | nil => rfl
  | cons c body =>
    cases dropWhile_notClosing tail
    rw [matchesOf_char_seq, if_pos (by decide)]
    exact head_reluctant_literal closeTag body

theorem tagBody_isSome :
    (tagBody s).isSome = true ↔ ∃ body, '>' :: body <:+ s ∧ (splitLiteral closeTag body).isSome = true := by
  constructor
  · intro found
    unfold tagBody at found
    split at found
    next => cases found
    next c body tail =>
      cases dropWhile_notClosing tail
      exact ⟨body, tail ▸ List.dropWhile_suffix _, found⟩
  · rintro ⟨body, inside, found⟩
    have after := suffix_dropWhile (by decide : notClosing '>' = false) inside
    unfold tagBody
    split
    next nothing =>
      rw [nothing] at after
      cases List.suffix_nil.mp after
    next c behind tail =>
      rw [tail] at after
      have later : body <:+ behind := by
        rcases List.suffix_cons_iff.mp after with same | later
        · cases same
          exact List.suffix_rfl
        · exact (List.suffix_cons _ body).trans later
      exact splitLiteral_isSome_mono later found

theorem tagBody_mono (inside : s' <:+ s) (found : (tagBody s').isSome = true) :
    (tagBody s).isSome = true := by
  obtain ⟨body, rest_of, closed⟩ := tagBody_isSome.mp found
  exact tagBody_isSome.mpr ⟨body, rest_of.trans inside, closed⟩

/-- Where an opening tag leads nowhere, no later one leads anywhere. -/
theorem later_tag {c : Char} (here : dropLiteral openTag (c :: s) = some rest)
    (nowhere : tagBody rest = none) :
    (splitLiteral openTag s).bind (fun parts => tagBody parts.2) = none := by
  cases later : splitLiteral openTag s with
  | none => rfl
  | some parts =>
    rw [Option.bind_some]
    by_contra somewhere
    obtain ⟨s', whole, drops⟩ := splitLiteral_eq later
    obtain ⟨front, length, first⟩ := dropLiteral_eq here
    obtain ⟨front', length', second⟩ := dropLiteral_eq drops
    have inside : parts.2 <:+ rest := by
      have outer : parts.2 <:+ c :: s := by
        rw [whole, second]
        exact ((List.suffix_append _ _).trans (List.suffix_append _ _)).trans (List.suffix_cons _ _)
      have inner : rest <:+ c :: s := first ▸ List.suffix_append _ _
      refine List.suffix_of_suffix_length_le outer inner ?_
      have shorter := congrArg List.length whole
      have same := congrArg List.length first
      rw [second] at shorter
      simp only [List.length_append, List.length_cons] at shorter same
      omega
    have found := tagBody_mono inside (Option.isSome_iff_ne_none.mpr somewhere)
    rw [nowhere] at found
    cases found

theorem search_titlePattern (html : List Char) :
    titlePattern.search html = (splitLiteral openTag html).bind fun parts =>
      (tagBody parts.2).map fun found => ⟨some found.1, found.2⟩ := by
  induction html with
  | nil => rfl
  | cons c s ih =>
    rw [Regex.search, ih]
    cases here : dropLiteral openTag (c :: s) with
    | none =>
      have none_here : titlePattern.matchesOf (c :: s) = [] := matchesOf_literal_seq_none here _
      rw [none_here, List.head?_nil, Option.none_or, splitLiteral, here]
      cases splitLiteral openTag s <;> rfl
    | some rest =>
      have found : (titlePattern.matchesOf (c :: s)).head? =
          (tagBody rest).map fun found => ⟨some found.1, found.2⟩ := by
        rw [← head_afterTag]
        exact congrArg List.head? (matchesOf_literal_seq here _)
      rw [found, splitLiteral, here, Option.bind_some]
      cases body : tagBody rest with
      | some parts => rfl
      | none =>
        have nothing := later_tag here body
        have mapped := congrArg
          (Option.map fun found => (⟨some found.1, found.2⟩ : Match Char)) nothing
        rw [Option.map_bind] at mapped
        rw [Option.map_none, Option.none_or]
        exact mapped

/-- The backtracking search for the title comes to what a single scan finds, which
looks at the first opening tag only. -/
theorem title_search_is_scan (html : List Char) :
    (titlePattern.search html).bind Match.group = scanTitle html := by
  rw [search_titlePattern, Option.bind_assoc]
  congr 1
  funext parts
  cases tagBody parts.2 <;> rfl

theorem mem_cleanTitle {text : List Char} {title : String} (h : cleanTitle text = some title) {c : Char}
    (inside : c ∈ title.toList) : isTitleChar c = true := by
  simp only [cleanTitle, Option.ite_none_left_eq_some, Option.some.injEq] at h
  rw [← h.2, String.toList_ofList] at inside
  exact (List.mem_filter.mp inside).2

theorem length_cleanTitle {text : List Char} {title : String} (h : cleanTitle text = some title) :
    title.toList.length ≤ 503 ∧ title.toList ≠ [] := by
  simp only [cleanTitle, Option.ite_none_left_eq_some, Option.some.injEq] at h
  obtain ⟨some_char, rfl⟩ := h
  rw [String.toList_ofList]
  refine ⟨(List.length_filter_le _ _).trans ?_, some_char⟩
  split
  next =>
    rw [List.length_append, List.length_take]
    have dots : "...".toList.length = 3 := rfl
    omega
  next short => omega

theorem extractTitle_some {bytes : List UInt8} {title : String} (h : extractTitle bytes = some title) :
    ∃ text, cleanTitle text = some title := by
  simp only [extractTitle, Option.ite_none_left_eq_some] at h
  obtain ⟨found, -, cleaned⟩ := Option.bind_eq_some_iff.mp h.2
  obtain ⟨text, -, cleaned⟩ := Option.bind_eq_some_iff.mp cleaned
  exact ⟨text, cleaned⟩

/-- Whatever the bytes of a page are, its title is not empty, is bounded, and is
text that the database takes. -/
theorem title_storable {bytes : List UInt8} {title : String} (h : extractTitle bytes = some title) :
    title.toList ≠ [] ∧ title.toList.length ≤ 503 ∧ (∀ c ∈ title.toList, isTitleChar c = true) ∧
      Storable title := by
  obtain ⟨text, cleaned⟩ := extractTitle_some h
  obtain ⟨bounded, some_char⟩ := length_cleanTitle cleaned
  refine ⟨some_char, bounded, fun c inside => mem_cleanTitle cleaned inside, ?_⟩
  intro inside
  exact absurd (mem_cleanTitle cleaned inside) (by decide)

/-- A page up to the end of its title element. The attributes of the start tag
hold no `>`, not even in quotes. -/
structure TitledPage where
  front : List Char
  opening : List Char
  attributes : List Char
  text : List Char
  closing : List Char
  opens : FirstSpelling openTag front opening
  plain : '>' ∉ attributes
  closes : FirstSpelling closeTag text closing

def TitledPage.html (page : TitledPage) : List Char :=
  page.front ++ (page.opening ++ (page.attributes ++ '>' :: (page.text ++ page.closing)))

theorem scanTitle_page (page : TitledPage) (rest : List Char) :
    scanTitle (page.html ++ rest) = some page.text := by
  have opened := page.opens.split (page.attributes ++ '>' :: (page.text ++ (page.closing ++ rest)))
  have attributes : (page.attributes ++ '>' :: (page.text ++ (page.closing ++ rest))).dropWhile
      notClosing = '>' :: (page.text ++ (page.closing ++ rest)) := by
    have inside : ∀ c ∈ page.attributes, notClosing c = true := by
      intro c mem
      by_contra closes
      have same : c = '>' := eq_closing (by simpa using closes)
      exact page.plain (same ▸ mem)
    rw [List.dropWhile_append_of_pos inside]
    exact List.dropWhile_cons_of_neg (by decide)
  have closed := page.closes.split rest
  simp only [TitledPage.html, List.append_assoc, List.cons_append, scanTitle, opened, Option.bind_some,
    tagBody, attributes, closed, Option.map_some]

theorem cleanTitle_plain {text : List Char} (stripped : strip text = text) (short : text.length ≤ 500)
    (clean : ∀ c ∈ text, isTitleChar c = true) (some_char : text ≠ []) :
    cleanTitle text = some (String.ofList text) := by
  have kept : text.filter isTitleChar = text := List.filter_eq_self.mpr clean
  simp only [cleanTitle, stripped, if_neg (Nat.not_lt.mpr short), kept, if_neg some_char]

theorem extractTitle_page (page : TitledPage) (limit : Nat) (stream : List (List UInt8)) (rest : List UInt8)
    (served : stream.flatten = Utf8.bytes page.html ++ rest)
    (fits : (Utf8.bytes page.html).length ≤ limit) :
    extractTitle (readBodyLimited limit stream).body = cleanTitle page.text := by
  have read : (readBodyLimited limit stream).body =
      Utf8.bytes page.html ++ rest.take (limit - (Utf8.bytes page.html).length) := by
    rw [readBodyLimited_body, served, List.take_append, List.take_of_length_le fits]
  have some_byte : (readBodyLimited limit stream).body ≠ [] := by
    intro empty
    rw [read, List.append_eq_nil_iff] at empty
    have no_bytes : Utf8.encode page.html = [] := by rw [← Utf8.bytes_toNat, empty.1]; rfl
    have decoded := Utf8.decodeReplace_encode page.html []
    rw [no_bytes, List.append_nil, Utf8.decodeReplace, List.append_nil] at decoded
    have closed : '>' ∈ page.html := by simp [TitledPage.html]
    rw [← decoded] at closed
    cases closed
  unfold extractTitle
  rw [if_neg some_byte, read, List.map_append, Utf8.bytes_toNat, Utf8.decodeReplace_encode]
  have found := title_search_is_scan
    (page.html ++ Utf8.decodeReplace ((rest.take (limit - (Utf8.bytes page.html).length)).map UInt8.toNat))
  rw [scanTitle_page] at found
  obtain ⟨m, searched, group⟩ := Option.bind_eq_some_iff.mp found
  simp only [searched, Option.bind_some, group]

/-- The start tag is in upper case and the end tag in mixed case. -/
def homePage : TitledPage where
  front := "x".toList
  opening := "<TITLE".toList
  attributes := " a=1".toList
  text := "Home".toList
  closing := "</Title>".toList
  opens := .of_absent (by decide) (by decide)
  plain := by decide
  closes := .of_absent (by decide) (by decide)

/-- A page with U+0000 in its title. -/
def nulPage : TitledPage where
  front := []
  opening := "<title".toList
  attributes := []
  text := ['a', nul, 'b']
  closing := "</title>".toList
  opens := .of_absent (by decide) (by decide)
  plain := by decide
  closes := .of_absent (by decide) (by decide)

example : extractTitle (readBodyLimited 100 [Utf8.bytes nulPage.html]).body = some "ab" := by decide +kernel

/-- A page that is served in UTF-8 yields the title in it if it has come up to the
end of the title element within the limit, whatever follows and wherever the body
is cut. -/
theorem served_title (page : TitledPage) (limit : Nat) (stream : List (List UInt8)) (rest : List UInt8)
    (served : stream.flatten = Utf8.bytes page.html ++ rest)
    (fits : (Utf8.bytes page.html).length ≤ limit) (stripped : strip page.text = page.text)
    (short : page.text.length ≤ 500) (clean : ∀ c ∈ page.text, isTitleChar c = true) :
    extractTitle (readBodyLimited limit stream).body =
      if page.text = [] then none else some (String.ofList page.text) := by
  rw [extractTitle_page page limit stream rest served fits]
  by_cases empty : page.text = []
  · rw [if_pos empty, empty]
    rfl
  · rw [if_neg empty]
    exact cleanTitle_plain stripped short clean empty

theorem served_title_home :
    extractTitle (readBodyLimited 34 [Utf8.bytes homePage.html, [0xff]]).body = some "Home" := by
  have found := served_title homePage 34 [Utf8.bytes homePage.html, [0xff]] [0xff] rfl (by decide) (by decide)
    (by decide) (List.all_eq_true.mp (by decide))
  rw [if_neg (by decide)] at found
  exact found

end DomainProcessing
