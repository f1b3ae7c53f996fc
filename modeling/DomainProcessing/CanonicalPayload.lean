import DomainProcessing.IpAddresses
import DomainProcessing.PrefixCodes
import DomainProcessing.RequestHash

namespace DomainProcessing

open PrefixCodes

/-- `uXXXX`, as a code unit. -/
def readUnit : List Char → Option (Nat × List Char)
  | 'u' :: a :: b :: c :: d :: rest =>
    ([a, b, c, d].mapM hexDigitValue).map fun digits => (fromHex digits, rest)
  | _ => none

def shortEscape (e : Char) : Char :=
  if e = 'b' then Char.ofNat 8
  else if e = 'f' then Char.ofNat 12
  else if e = 'n' then '\n'
  else if e = 'r' then '\r'
  else if e = 't' then '\t'
  else e

/-- A character of a JSON string, read from the text that `json.dumps` writes. -/
def readJsonChar : List Char → Option (Char × List Char)
  | [] => none
  | c :: rest =>
    if c = '\\' then
      match readUnit rest with
      | none => rest.head?.map fun e => (shortEscape e, rest.tail)
      | some (unit, rest) =>
        if 0xd800 ≤ unit ∧ unit < 0xdc00 then
          (readUnit rest.tail).map fun low =>
            (Char.ofNat (65536 + (unit - 0xd800) * 1024 + (low.1 - 0xdc00)), low.2)
        else some (Char.ofNat unit, rest)
    else some (c, rest)

theorem unicodeEscape_eq (n : Nat) : ∃ word, unicodeEscape n = '\\' :: word ∧
    ∀ rest, n < 65536 → readUnit (word ++ rest) = some (n, rest) := by
  refine ⟨(unicodeEscape n).tail, rfl, ?_⟩
  intro rest h
  have digit : ∀ k, hexDigitValue (k % 16).digitChar = some (k % 16) :=
    fun k => hexDigitValue_digitChar (Nat.mod_lt k (by decide))
  have value : fromHex [n / 4096 % 16, n / 256 % 16, n / 16 % 16, n % 16] = n := by
    simp only [fromHex, List.foldl_cons, List.foldl_nil]
    omega
  simp only [unicodeEscape, List.tail_cons, List.cons_append, List.nil_append, readUnit, List.mapM_cons,
    List.mapM_nil, digit]
  exact congrArg (fun m => some (m, rest)) value

theorem readJsonChar_escape {e : Char} (rest : List Char) (h : e ≠ 'u') :
    readJsonChar ('\\' :: e :: rest) = some (shortEscape e, rest) := by
  have unread : readUnit (e :: rest) = none := by
    unfold readUnit
    split
    next same => exact absurd (List.cons.inj same).1 h
    next => rfl
  rw [readJsonChar, if_pos rfl, unread]
  rfl

theorem readJsonChar_plain {c : Char} (rest : List Char) (h : c ≠ '\\') :
    readJsonChar (c :: rest) = some (c, rest) := by
  rw [readJsonChar, if_neg h]

/-- The forms in which a character of a string is written. -/
inductive JsonForm (c : Char) : List Char → Prop
  | short (e : Char) : e ≠ 'u' → shortEscape e = c → JsonForm c ['\\', e]
  | plain : c ≠ '\\' → c ≠ '"' → JsonForm c [c]
  | unit : c.toNat < 65536 → JsonForm c (unicodeEscape c.toNat)
  | pair : 65536 ≤ c.toNat → JsonForm c (unicodeEscape (0xd800 + (c.toNat - 65536) / 1024) ++
      unicodeEscape (0xdc00 + (c.toNat - 65536) % 1024))

theorem jsonChar_form (c : Char) : JsonForm c (jsonChar c) := by
  have ofToNat : ∀ {n}, c.toNat = n → Char.ofNat n = c := by
    rintro n rfl
    exact Char.ofNat_toNat c
  unfold jsonChar
  by_cases slash : c = '\\'
  · rw [if_pos slash]
    exact .short _ (by decide) slash.symm
  rw [if_neg slash]
  by_cases quote : c = '"'
  · rw [if_pos quote]
    exact .short _ (by decide) quote.symm
  rw [if_neg quote]
  by_cases backspace : c.toNat = 8
  · rw [if_pos backspace]
    exact .short _ (by decide) (ofToNat backspace)
  rw [if_neg backspace]
  by_cases feed : c.toNat = 12
  · rw [if_pos feed]
    exact .short _ (by decide) (ofToNat feed)
  rw [if_neg feed]
  by_cases newline : c = '\n'
  · rw [if_pos newline]
    exact .short _ (by decide) newline.symm
  rw [if_neg newline]
  by_cases carriage : c = '\r'
  · rw [if_pos carriage]
    exact .short _ (by decide) carriage.symm
  rw [if_neg carriage]
  by_cases tab : c = '\t'
  · rw [if_pos tab]
    exact .short _ (by decide) tab.symm
  rw [if_neg tab]
  by_cases plain : 32 ≤ c.toNat ∧ c.toNat ≤ 126
  · rw [if_pos plain]
    exact .plain slash quote
  rw [if_neg plain]
  by_cases basic : c.toNat < 65536
  · rw [if_pos basic]
    exact .unit basic
  rw [if_neg basic]
  exact .pair (Nat.le_of_not_lt basic)

/-- The escapes of `json.dumps` can be read back. -/
theorem readJsonChar_jsonChar (c : Char) (rest : List Char) :
    readJsonChar (jsonChar c ++ rest) = some (c, rest) := by
  have valid : c.toNat < 0xd800 ∨ 0xdfff < c.toNat ∧ c.toNat < 0x110000 := c.valid
  have form := jsonChar_form c
  generalize jsonChar c = code at form
  cases form with
  | short e unlike same =>
    rw [← same]
    exact readJsonChar_escape rest unlike
  | plain slash _ => exact readJsonChar_plain rest slash
  | unit basic =>
    obtain ⟨word, escaped, reads⟩ := unicodeEscape_eq c.toNat
    have single : ¬(0xd800 ≤ c.toNat ∧ c.toNat < 0xdc00) := by omega
    rw [escaped, List.cons_append, readJsonChar, if_pos rfl, reads rest basic]
    simp only [if_neg single, Char.ofNat_toNat]
  | pair beyond =>
    obtain ⟨high, first, readsHigh⟩ := unicodeEscape_eq (0xd800 + (c.toNat - 65536) / 1024)
    obtain ⟨low, second, readsLow⟩ := unicodeEscape_eq (0xdc00 + (c.toNat - 65536) % 1024)
    have pair : 0xd800 ≤ 0xd800 + (c.toNat - 65536) / 1024 ∧
        0xd800 + (c.toNat - 65536) / 1024 < 0xdc00 := by omega
    have value : 65536 + (0xd800 + (c.toNat - 65536) / 1024 - 0xd800) * 1024 +
        (0xdc00 + (c.toNat - 65536) % 1024 - 0xdc00) = c.toNat := by omega
    rw [first, second, List.append_assoc, List.cons_append, List.cons_append, readJsonChar, if_pos rfl,
      readsHigh _ (by omega)]
    simp only [if_pos pair, List.tail_cons, readsLow rest (by omega), Option.map_some, value,
      Char.ofNat_toNat]

/-- Apart from the quotation mark that closes a string, nothing it contains
starts with one. -/
theorem jsonChar_startsUnlike : StartsUnlike '"' jsonChar := by
  intro c
  have form := jsonChar_form c
  generalize jsonChar c = code at form
  cases form with
  | short e _ _ => exact ⟨_, _, rfl, by decide⟩
  | plain _ quote => exact ⟨_, _, rfl, quote⟩
  | unit _ => exact ⟨_, _, rfl, by decide⟩
  | pair _ => exact ⟨_, _, rfl, by decide⟩

theorem jsonString_selfDelimiting : SelfDelimiting jsonString := by
  have chars : SelfDelimiting jsonChar := .of_reader readJsonChar readJsonChar_jsonChar
  have strings := ((chars.closed jsonChar_startsUnlike).cons '"').comp (f := String.toList)
    fun _ _ same => String.toList_inj.mp same
  exact strings

theorem jsonString_startsUnlike : StartsUnlike ']' jsonString :=
  fun s => ⟨_, _, rfl, by decide⟩

/-- The canonical text says which values there are, and how often each occurs. -/
theorem canonicalPayload_eq_iff {text : PythonText} {p q : List String} :
    canonicalPayload text p = canonicalPayload text q ↔
      (p.map fun d => (normalizeDomain text d).value).Perm (q.map fun d => (normalizeDomain text d).value) := by
  have sorts : ∀ xs : List String, (xs.mergeSort fun a b => decide (a ≤ b)).Perm xs :=
    fun xs => List.mergeSort_perm xs _
  have ordered : (∀ a b c : String, decide (a ≤ b) = true → decide (b ≤ c) = true → decide (a ≤ c) = true) ∧
      ∀ a b : String, (decide (a ≤ b) || decide (b ≤ a)) = true := by
    simp only [decide_eq_true_eq, Bool.or_eq_true]
    exact ⟨fun a b c => String.le_trans, fun a b => String.le_total a b⟩
  constructor
  · intro same
    have texts := congrArg String.toList same
    simp only [canonicalPayload, String.toList_append, String.toList_ofList, List.append_assoc] at texts
    have lists : _ ++ ']' :: ['}'] = _ ++ ']' :: ['}'] := List.append_cancel_left texts
    obtain ⟨sorted, _⟩ := jsonString_selfDelimiting.intercalate_stop jsonString_startsUnlike (by decide) lists
    exact ((sorts _).symm.trans (List.Perm.of_eq sorted)).trans (sorts _)
  · intro perm
    have sorted : (p.map fun d => (normalizeDomain text d).value).mergeSort (fun a b => decide (a ≤ b)) =
        (q.map fun d => (normalizeDomain text d).value).mergeSort fun a b => decide (a ≤ b) := by
      have both := ((sorts _).trans perm).trans (sorts _).symm
      refine both.eq_of_pairwise ?_ (List.pairwise_mergeSort ordered.1 ordered.2 _)
        (List.pairwise_mergeSort ordered.1 ordered.2 _)
      intro a b _ _ first second
      exact String.le_antisymm (of_decide_eq_true first) (of_decide_eq_true second)
    simp only [canonicalPayload, sorted]

end DomainProcessing
