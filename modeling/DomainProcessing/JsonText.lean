import DomainProcessing.CanonicalPayload

namespace DomainProcessing

def isNumberChar (c : Char) : Bool := c.isDigit || "+-.eE".toList.contains c

/-- What is left after the digits, if there is one. -/
def afterDigits (s : List Char) : Option (List Char) :=
  if (s.takeWhile Char.isDigit).isEmpty then none else some (s.dropWhile Char.isDigit)

def afterFraction : List Char → Option (List Char)
  | '.' :: s => afterDigits s
  | s => some s

def afterExponent : List Char → Option (List Char)
  | [] => some []
  | e :: s => if e = 'e' ∨ e = 'E' then
      match s with
      | '+' :: s | '-' :: s => afterDigits s
      | s => afterDigits s
    else some (e :: s)

def withoutSign : List Char → List Char
  | '-' :: s => s
  | s => s

/-- The number grammar of JSON; a leading zero stands alone. -/
def isJsonNumber (s : List Char) : Bool :=
  s.all isNumberChar &&
    (withoutSign s).head?.any Char.isDigit &&
    !("0".toList.isPrefixOf (withoutSign s) && (withoutSign s).tail.head?.any Char.isDigit) &&
    ((afterDigits (withoutSign s)).bind fun s => (afterFraction s).bind afterExponent) == some []

structure JsonNumber where
  text : List Char
  grammar : isJsonNumber text = true

inductive Json
  | null
  | bool (value : Bool)
  | number (value : JsonNumber)
  | string (value : String)
  | array (items : List Json)
  | object (members : List (String × Json))

mutual

/-- `json.dumps(value, separators=(",", ":"))` -/
def Json.dumps : Json → List Char
  | .null => "null".toList
  | .bool true => "true".toList
  | .bool false => "false".toList
  | .number n => n.text
  | .string s => jsonString s
  | .array [] => "[]".toList
  | .array (v :: items) => '[' :: (v.dumps ++ dumpsItems items)
  | .object [] => ['{', '}']
  | .object (m :: members) => '{' :: (jsonString m.1 ++ ':' :: (m.2.dumps ++ dumpsMembers members))

/-- The items after the first. -/
def dumpsItems : List Json → List Char
  | [] => [']']
  | v :: items => ',' :: (v.dumps ++ dumpsItems items)

def dumpsMembers : List (String × Json) → List Char
  | [] => ['}']
  | m :: members => ',' :: (jsonString m.1 ++ ':' :: (m.2.dumps ++ dumpsMembers members))

end

/-- The characters of a string up to its closing quotation mark. -/
def readChars : Nat → List Char → Option (List Char × List Char)
  | 0, _ => none
  | _ + 1, [] => none
  | fuel + 1, c :: s =>
    if c = '"' then some ([], s)
    else (readJsonChar (c :: s)).bind fun read =>
      (readChars fuel read.2).map fun chars => (read.1 :: chars.1, chars.2)

def readString : List Char → Option (String × List Char)
  | '"' :: s => (readChars s.length s).map fun chars => (String.ofList chars.1, chars.2)
  | _ => none

def readNumber (s : List Char) : Option (Json × List Char) :=
  if grammar : isJsonNumber (s.takeWhile isNumberChar) = true then
    some (.number ⟨_, grammar⟩, s.dropWhile isNumberChar)
  else none

def readKey (s : List Char) : Option (String × List Char) :=
  (readString s).bind fun read =>
    match read.2 with
    | ':' :: s => some (read.1, s)
    | _ => none

mutual

def readValue : Nat → List Char → Option (Json × List Char)
  | 0, _ => none
  | fuel + 1, s =>
    match s with
    | 'n' :: 'u' :: 'l' :: 'l' :: s => some (.null, s)
    | 't' :: 'r' :: 'u' :: 'e' :: s => some (.bool true, s)
    | 'f' :: 'a' :: 'l' :: 's' :: 'e' :: s => some (.bool false, s)
    | '"' :: _ => (readString s).map fun read => (.string read.1, read.2)
    | '[' :: ']' :: s => some (.array [], s)
    | '[' :: s =>
      (readValue fuel s).bind fun first => (readItems fuel first.2).map fun items =>
        (.array (first.1 :: items.1), items.2)
    | '{' :: '}' :: s => some (.object [], s)
    | '{' :: s =>
      (readKey s).bind fun key => (readValue fuel key.2).bind fun first =>
        (readMembers fuel first.2).map fun members =>
          (.object ((key.1, first.1) :: members.1), members.2)
    | s => readNumber s

def readItems : Nat → List Char → Option (List Json × List Char)
  | 0, _ => none
  | fuel + 1, s =>
    match s with
    | ']' :: s => some ([], s)
    | ',' :: s =>
      (readValue fuel s).bind fun first => (readItems fuel first.2).map fun items =>
        (first.1 :: items.1, items.2)
    | _ => none

def readMembers : Nat → List Char → Option (List (String × Json) × List Char)
  | 0, _ => none
  | fuel + 1, s =>
    match s with
    | '}' :: s => some ([], s)
    | ',' :: s =>
      (readKey s).bind fun key => (readValue fuel key.2).bind fun first =>
        (readMembers fuel first.2).map fun members =>
          ((key.1, first.1) :: members.1, members.2)
    | _ => none

end

/-- The value that the whole text is. -/
def readJson (s : List Char) : Option Json :=
  (readValue s.length s).bind fun read => if read.2 = [] then some read.1 else none

theorem readChars_written (w : List Char) {fuel : Nat} (enough : w.length < fuel) (rest : List Char) :
    readChars fuel (w.flatMap jsonChar ++ '"' :: rest) = some (w, rest) := by
  induction w generalizing fuel with
  | nil =>
    obtain ⟨fuel, rfl⟩ := Nat.exists_eq_succ_of_ne_zero (Nat.ne_of_gt enough)
    exact if_pos rfl
  | cons c w ih =>
    obtain ⟨fuel, rfl⟩ := Nat.exists_eq_succ_of_ne_zero (Nat.ne_of_gt (Nat.zero_lt_of_lt enough))
    have reads := readJsonChar_jsonChar c (w.flatMap jsonChar ++ '"' :: rest)
    obtain ⟨d, code, same, unlike⟩ := jsonChar_startsUnlike c
    rw [List.flatMap_cons, List.append_assoc]
    rw [same, List.cons_append] at reads ⊢
    rw [readChars, if_neg unlike, reads, Option.bind_some, ih (Nat.lt_of_succ_lt_succ enough)]
    rfl

theorem readString_jsonString (s : String) (rest : List Char) :
    readString (jsonString s ++ rest) = some (s, rest) := by
  have longer : ∀ w : List Char, w.length ≤ (w.flatMap jsonChar).length := by
    intro w
    induction w with
    | nil => exact Nat.le_refl _
    | cons c w ih =>
      obtain ⟨d, code, same, -⟩ := jsonChar_startsUnlike c
      simp only [List.flatMap_cons, List.length_append, same, List.length_cons]
      omega
  have bound := longer s.toList
  have text : jsonString s ++ rest = '"' :: (s.toList.flatMap jsonChar ++ '"' :: rest) := by
    simp [jsonString]
  have enough : s.toList.length < (s.toList.flatMap jsonChar ++ '"' :: rest).length := by
    rw [List.length_append, List.length_cons]
    omega
  rw [text, readString, readChars_written s.toList enough, Option.map_some, String.ofList_toList]

theorem readKey_jsonString (key : String) (rest : List Char) :
    readKey (jsonString key ++ ':' :: rest) = some (key, rest) := by
  rw [readKey, readString_jsonString]
  rfl

/-- A number ends where this begins. -/
def Stops (s : List Char) : Prop := s.head?.all (fun c => !isNumberChar c) = true

theorem readNumber_text (n : JsonNumber) {rest : List Char} (stop : Stops rest) :
    readNumber (n.text ++ rest) = some (.number n, rest) := by
  have chars : ∀ c ∈ n.text, isNumberChar c = true := by
    have grammar := n.grammar
    simp only [isJsonNumber, Bool.and_eq_true] at grammar
    exact List.all_eq_true.mp grammar.1.1.1
  have tail : rest.takeWhile isNumberChar = [] ∧ rest.dropWhile isNumberChar = rest := by
    cases rest with
    | nil => exact ⟨rfl, rfl⟩
    | cons c rest =>
      have ends : isNumberChar c = false := by simpa [Stops] using stop
      simp [ends]
  have run : (n.text ++ rest).takeWhile isNumberChar = n.text := by
    rw [List.takeWhile_append_of_pos chars, tail.1, List.append_nil]
  have left : (n.text ++ rest).dropWhile isNumberChar = rest := by
    rw [List.dropWhile_append_of_pos chars, tail.2]
  unfold readNumber
  rw [dif_pos (run.symm ▸ n.grammar), left]
  simp only [run]

/-- The first character of a number. -/
theorem JsonNumber.head (n : JsonNumber) : ∃ c s, n.text = c :: s ∧ (c = '-' ∨ c.isDigit = true) := by
  have grammar := n.grammar
  simp only [isJsonNumber, Bool.and_eq_true] at grammar
  have first := grammar.1.1.2
  cases text : n.text with
  | nil => rw [text] at first; cases first
  | cons c s =>
    refine ⟨c, s, rfl, ?_⟩
    by_cases sign : c = '-'
    · exact Or.inl sign
    · refine Or.inr ?_
      rw [text] at first
      unfold withoutSign at first
      split at first
      next same => exact absurd (List.cons.inj same).1 sign
      next => exact first

theorem dumps_head (v : Json) : ∃ c s, v.dumps = c :: s ∧ c ≠ ']' := by
  cases v with
  | null => exact ⟨_, _, rfl, by decide⟩
  | bool b => cases b <;> exact ⟨_, _, rfl, by decide⟩
  | number n =>
    obtain ⟨c, s, text, first⟩ := n.head
    refine ⟨c, s, text, ?_⟩
    rintro rfl
    revert first
    decide
  | string s => exact ⟨_, _, rfl, by decide⟩
  | array items => cases items <;> exact ⟨_, _, rfl, by decide⟩
  | object members => cases members <;> exact ⟨_, _, rfl, by decide⟩

theorem stops_items (items : List Json) (rest : List Char) : Stops (dumpsItems items ++ rest) := by
  cases items with
  | nil =>
    change (!isNumberChar ']') = true
    decide
  | cons v items =>
    change (!isNumberChar ',') = true
    decide

theorem stops_members (members : List (String × Json)) (rest : List Char) :
    Stops (dumpsMembers members ++ rest) := by
  cases members with
  | nil =>
    change (!isNumberChar '}') = true
    decide
  | cons v members =>
    change (!isNumberChar ',') = true
    decide

theorem readValue_number (n : JsonNumber) (fuel : Nat) {rest : List Char} (stop : Stops rest) :
    readValue (fuel + 1) (n.text ++ rest) = some (.number n, rest) := by
  obtain ⟨c, s, text, first⟩ := n.head
  have unlike : ∀ d : Char, d ≠ '-' → d.isDigit = false → c ≠ d := by
    rintro d dash digit rfl
    rcases first with same | yes
    · exact dash same
    · rw [digit] at yes
      cases yes
  rw [← readNumber_text n stop, text, List.cons_append, readValue]
  · exact fun _ same => unlike 'n' (by decide) (by decide) (List.cons.inj same).1
  · exact fun _ same => unlike 't' (by decide) (by decide) (List.cons.inj same).1
  · exact fun _ same => unlike 'f' (by decide) (by decide) (List.cons.inj same).1
  · exact fun _ same => unlike '"' (by decide) (by decide) (List.cons.inj same).1
  · exact fun _ same => unlike '[' (by decide) (by decide) (List.cons.inj same).1
  · exact fun _ same => unlike '[' (by decide) (by decide) (List.cons.inj same).1
  · exact fun _ same => unlike '{' (by decide) (by decide) (List.cons.inj same).1
  · exact fun _ same => unlike '{' (by decide) (by decide) (List.cons.inj same).1

theorem readValue_array (v : Json) (fuel : Nat) (rest : List Char) :
    readValue (fuel + 1) ('[' :: (v.dumps ++ rest)) =
      (readValue fuel (v.dumps ++ rest)).bind fun first => (readItems fuel first.2).map fun items =>
        (.array (first.1 :: items.1), items.2) := by
  obtain ⟨c, s, text, unlike⟩ := dumps_head v
  rw [text, List.cons_append, readValue]
  exact fun _ same => unlike (List.cons.inj same).1

theorem readValue_object (key : String) (fuel : Nat) (rest : List Char) :
    readValue (fuel + 1) ('{' :: (jsonString key ++ ':' :: rest)) =
      (readValue fuel rest).bind fun first => (readMembers fuel first.2).map fun members =>
        (.object ((key, first.1) :: members.1), members.2) := by
  have text : jsonString key ++ ':' :: rest = '"' :: (jsonString key ++ ':' :: rest).tail := rfl
  have read := readKey_jsonString key rest
  rw [text] at read ⊢
  rw [readValue, read, Option.bind_some]
  exact fun _ same => absurd (List.cons.inj same).1 (by decide)

mutual

/-- What `dumps` writes is read back, whatever follows it. -/
theorem readValue_dumps (v : Json) (fuel : Nat) (rest : List Char) (enough : v.dumps.length ≤ fuel)
    (stop : Stops rest) : readValue fuel (v.dumps ++ rest) = some (v, rest) := by
  obtain ⟨c, s, text, -⟩ := dumps_head v
  have positive : fuel ≠ 0 := by
    rw [text, List.length_cons] at enough
    omega
  obtain ⟨fuel, rfl⟩ := Nat.exists_eq_succ_of_ne_zero positive
  clear text positive
  match v with
  | .null => rfl
  | .bool true => rfl
  | .bool false => rfl
  | .number n => exact readValue_number n fuel stop
  | .string s =>
    have text : jsonString s ++ rest = '"' :: (jsonString s ++ rest).tail := rfl
    have read := readString_jsonString s rest
    rw [text] at read
    rw [Json.dumps, text, readValue, read]
    rfl
  | .array [] => rfl
  | .array (v :: items) =>
    simp only [Json.dumps, List.length_cons, List.length_append] at enough
    rw [Json.dumps, List.cons_append, List.append_assoc, readValue_array,
      readValue_dumps v fuel _ (by omega) (stops_items items rest), Option.bind_some,
      readItems_dumps items fuel rest (by omega)]
    rfl
  | .object [] => rfl
  | .object (m :: members) =>
    simp only [Json.dumps, List.length_cons, List.length_append] at enough
    rw [Json.dumps, List.cons_append, List.append_assoc, List.cons_append, List.append_assoc,
      readValue_object, readValue_dumps m.2 fuel _ (by omega) (stops_members members rest),
      Option.bind_some, readMembers_dumps members fuel rest (by omega)]
    rfl

theorem readItems_dumps (items : List Json) (fuel : Nat) (rest : List Char)
    (enough : (dumpsItems items).length ≤ fuel) :
    readItems fuel (dumpsItems items ++ rest) = some (items, rest) := by
  have positive : fuel ≠ 0 := by
    cases items <;> simp only [dumpsItems, List.length_cons] at enough <;> omega
  obtain ⟨fuel, rfl⟩ := Nat.exists_eq_succ_of_ne_zero positive
  clear positive
  match items with
  | [] => rfl
  | v :: items =>
    simp only [dumpsItems, List.length_cons, List.length_append] at enough
    rw [dumpsItems, List.cons_append, List.append_assoc, readItems,
      readValue_dumps v fuel _ (by omega) (stops_items items rest), Option.bind_some,
      readItems_dumps items fuel rest (by omega)]
    rfl

theorem readMembers_dumps (members : List (String × Json)) (fuel : Nat) (rest : List Char)
    (enough : (dumpsMembers members).length ≤ fuel) :
    readMembers fuel (dumpsMembers members ++ rest) = some (members, rest) := by
  have positive : fuel ≠ 0 := by
    cases members <;> simp only [dumpsMembers, List.length_cons] at enough <;> omega
  obtain ⟨fuel, rfl⟩ := Nat.exists_eq_succ_of_ne_zero positive
  clear positive
  match members with
  | [] => rfl
  | m :: members =>
    simp only [dumpsMembers, List.length_cons, List.length_append] at enough
    rw [dumpsMembers, List.cons_append, List.append_assoc, List.cons_append, List.append_assoc,
      readMembers, readKey_jsonString, Option.bind_some,
      readValue_dumps m.2 fuel _ (by omega) (stops_members members rest), Option.bind_some,
      readMembers_dumps members fuel rest (by omega)]
    rfl

end

/-- `dumps` can be read back. -/
theorem readJson_dumps (v : Json) : readJson v.dumps = some v := by
  have read := readValue_dumps v v.dumps.length [] (Nat.le_refl _) rfl
  rw [List.append_nil] at read
  rw [readJson, read]
  rfl

def isPrintable (c : Char) : Bool := 32 ≤ c.toNat && c.toNat ≤ 126

theorem digitChar_printable (n : Nat) : isPrintable (n % 16).digitChar = true := by
  have all : ∀ d < 16, isPrintable (Nat.digitChar d) = true := by decide
  exact all _ (Nat.mod_lt n (by decide))

theorem unicodeEscape_printable (n : Nat) : (unicodeEscape n).all isPrintable = true := by
  simp only [unicodeEscape, List.all_cons, digitChar_printable, List.all_nil, Bool.and_true]
  decide

theorem jsonChar_printable (c : Char) : (jsonChar c).all isPrintable = true := by
  unfold jsonChar
  by_cases slash : c = '\\'
  · rw [if_pos slash]; decide
  rw [if_neg slash]
  by_cases quote : c = '"'
  · rw [if_pos quote]; decide
  rw [if_neg quote]
  by_cases backspace : c.toNat = 8
  · rw [if_pos backspace]; decide
  rw [if_neg backspace]
  by_cases feed : c.toNat = 12
  · rw [if_pos feed]; decide
  rw [if_neg feed]
  by_cases newline : c = '\n'
  · rw [if_pos newline]; decide
  rw [if_neg newline]
  by_cases carriage : c = '\r'
  · rw [if_pos carriage]; decide
  rw [if_neg carriage]
  by_cases tab : c = '\t'
  · rw [if_pos tab]; decide
  rw [if_neg tab]
  by_cases plain : 32 ≤ c.toNat ∧ c.toNat ≤ 126
  · rw [if_pos plain]
    simpa [isPrintable] using plain
  rw [if_neg plain]
  by_cases basic : c.toNat < 65536
  · rw [if_pos basic]
    exact unicodeEscape_printable _
  rw [if_neg basic, List.all_append, unicodeEscape_printable, unicodeEscape_printable]
  rfl

theorem jsonString_printable (s : String) : (jsonString s).all isPrintable = true := by
  have chars : (s.toList.flatMap jsonChar).all isPrintable = true := by
    rw [List.all_flatMap]
    exact List.all_eq_true.mpr fun c _ => jsonChar_printable c
  simp only [jsonString, List.cons_append, List.all_cons, List.all_append, chars, List.all_nil]
  decide

theorem number_printable (n : JsonNumber) : n.text.all isPrintable = true := by
  have grammar := n.grammar
  simp only [isJsonNumber, Bool.and_eq_true] at grammar
  refine List.all_eq_true.mpr fun c mem => ?_
  have number := List.all_eq_true.mp grammar.1.1.1 c mem
  rcases Bool.or_eq_true_iff.mp number with digit | sign
  · simp only [Char.isDigit, Bool.and_eq_true, decide_eq_true_eq, ge_iff_le, UInt32.le_iff_toNat_le] at digit
    have low : 48 ≤ c.toNat := digit.1
    have high : c.toNat ≤ 57 := digit.2
    have inside : 32 ≤ c.toNat ∧ c.toNat ≤ 126 := by omega
    simpa [isPrintable] using inside
  · have signs : "+-.eE".toList.all isPrintable = true := by decide
    exact List.all_eq_true.mp signs c (List.contains_iff_mem.mp sign)

mutual

theorem dumps_printable (v : Json) : v.dumps.all isPrintable = true := by
  match v with
  | .null => decide
  | .bool true => decide
  | .bool false => decide
  | .number n => exact number_printable n
  | .string s => exact jsonString_printable s
  | .array [] => decide
  | .array (v :: items) =>
    simp only [Json.dumps, List.all_cons, List.all_append, dumps_printable v, dumpsItems_printable items]
    decide
  | .object [] => decide
  | .object (m :: members) =>
    simp only [Json.dumps, List.all_cons, List.all_append, jsonString_printable, dumps_printable m.2,
      dumpsMembers_printable members]
    decide

theorem dumpsItems_printable (items : List Json) : (dumpsItems items).all isPrintable = true := by
  match items with
  | [] => decide
  | v :: items =>
    simp only [dumpsItems, List.all_cons, List.all_append, dumps_printable v, dumpsItems_printable items]
    decide

theorem dumpsMembers_printable (members : List (String × Json)) :
    (dumpsMembers members).all isPrintable = true := by
  match members with
  | [] => decide
  | m :: members =>
    simp only [dumpsMembers, List.all_cons, List.all_append, jsonString_printable, dumps_printable m.2,
      dumpsMembers_printable members]
    decide

end

end DomainProcessing
