import DomainProcessing.JobRetrieval

namespace DomainProcessing

/-- The exceptions of the decoders. Those of base64, UTF-8 and JSON for bad
input are subclasses of `ValueError`. -/
inductive PyError
  | valueError
  | keyError
  | typeError
  | attributeError
  | recursionError
  deriving DecidableEq, Repr

/-- A Python string by its code points, which may be lone surrogates. -/
abbrev PyString := List Nat

def pyString (s : String) : PyString := s.toList.map Char.toNat

inductive JsonValue
  | null
  | bool (value : Bool)
  | number (literal : PyString)
  | string (value : PyString)
  | array (items : List JsonValue)
  | object (members : List (PyString × JsonValue))

/-- A `datetime`, naive when it has no offset. -/
structure PyDatetime where
  wall : Int
  utcoffset : Option Int
  deriving DecidableEq, Repr

structure DecodedCursor where
  createdAt : PyDatetime
  taskId : TaskId
  deriving DecidableEq, Repr

inductive JsonFailure
  | decodeError
  | recursionError

/-- The decoders of the standard library on arguments of the right type;
`none` is their `ValueError`. -/
structure Decoders where
  utf8 : List Nat → Option PyString
  jsonLoads : PyString → Except JsonFailure JsonValue
  fromisoformat : PyString → Option PyDatetime
  uuid : PyString → Option TaskId

/-- The value of a character, `-` and `_` standing for `+` and `/` as well. -/
def base64Value (c : Char) : Option Nat :=
  if 'A' ≤ c ∧ c ≤ 'Z' then some (c.toNat - 65)
  else if 'a' ≤ c ∧ c ≤ 'z' then some (c.toNat - 71)
  else if '0' ≤ c ∧ c ≤ '9' then some (c.toNat + 4)
  else if c = '+' ∨ c = '-' then some 62
  else if c = '/' ∨ c = '_' then some 63
  else none

/-- `binascii.a2b_base64`, which skips characters outside of its alphabet and
stops at complete padding. -/
def a2bBase64 : Nat → Nat → Nat → List Char → Option (List Nat)
  | quadPos, _, _, [] => if quadPos = 0 then some [] else none
  | quadPos, leftchar, pads, c :: rest =>
    if c = '=' then
      if 2 ≤ quadPos then
        if 4 ≤ quadPos + (pads + 1) then some [] else a2bBase64 quadPos leftchar (pads + 1) rest
      else a2bBase64 quadPos leftchar pads rest
    else
      match base64Value c with
      | none => a2bBase64 quadPos leftchar pads rest
      | some value =>
        match quadPos with
        | 0 => a2bBase64 1 value 0 rest
        | 1 => (a2bBase64 2 (value % 16) 0 rest).map ((leftchar * 4 + value / 16) :: ·)
        | 2 => (a2bBase64 3 (value % 4) 0 rest).map ((leftchar * 16 + value / 4) :: ·)
        | _ => (a2bBase64 0 0 0 rest).map ((leftchar * 64 + value) :: ·)

def urlsafeB64decode (s : String) : Option (List Nat) := a2bBase64 0 0 0 s.toList

example : urlsafeB64decode "bnVsbA==" = some (pyString "null") := by decide

/-- `data[key]`; of members with one name the last wins. -/
def JsonValue.subscript (key : String) : JsonValue → Except PyError JsonValue
  | .object members =>
    match members.reverse.find? fun member => decide (member.1 = pyString key) with
    | some member => .ok member.2
    | none => .error .keyError
  | _ => .error .typeError

def orValueError {α : Type} : Option α → Except PyError α
  | some result => .ok result
  | none => .error .valueError

def Decoders.loads (lib : Decoders) (text : PyString) : Except PyError JsonValue :=
  match lib.jsonLoads text with
  | .ok data => .ok data
  | .error .decodeError => .error .valueError
  | .error .recursionError => .error .recursionError

/-- `datetime.fromisoformat(value)` -/
def Decoders.isoDatetime (lib : Decoders) : JsonValue → Except PyError PyDatetime
  | .string value => orValueError (lib.fromisoformat value)
  | _ => .error .typeError

/-- `UUID(value)`, which takes `None` for a missing argument and calls `replace`
on anything else. -/
def Decoders.uuidOf (lib : Decoders) : JsonValue → Except PyError TaskId
  | .string value => orValueError (lib.uuid value)
  | .null => .error .typeError
  | _ => .error .attributeError

/-- The `try` block. -/
def cursorFields (lib : Decoders) (cursor : String) : Except PyError DecodedCursor := do
  let bytes ← orValueError (urlsafeB64decode cursor)
  let jsonData ← orValueError (lib.utf8 bytes)
  let data ← lib.loads jsonData
  let createdAt ← lib.isoDatetime (← data.subscript "created_at")
  let taskId ← lib.uuidOf (← data.subscript "task_id")
  pure ⟨createdAt, taskId⟩

def cursorDecode (lib : Decoders) (cursor : String) : Except PyError DecodedCursor :=
  match cursorFields lib cursor with
  | .error .valueError | .error .keyError => .error .valueError
  | result => result

/-- The cursor in `get_job`: a `ValueError` becomes a 400, any other exception
leaves the route. -/
def routeCursor (lib : Decoders) (cursor : String) : Except (HttpException ⊕ PyError) DecodedCursor :=
  match cursorDecode lib cursor with
  | .ok decoded => .ok decoded
  | .error .valueError => .error (.inl ⟨400, "invalid cursor format"⟩)
  | .error raised => .error (.inr raised)

/-- Either a `ValueError`, or a cursor whose time has an offset. -/
def Handled (result : Except PyError DecodedCursor) : Prop :=
  result = .error .valueError ∨ ∃ decoded, result = .ok decoded ∧ decoded.createdAt.utcoffset ≠ none

/-- A string, and the time before it has an offset if it is a UUID. -/
def TaskIdShape (lib : Decoders) (time : PyDatetime) (taskId : JsonValue) : Prop :=
  ∃ hex, taskId = .string hex ∧ ∀ uuid, lib.uuid hex = some uuid → time.utcoffset ≠ none

/-- A string, and what belongs to it is in shape if it is a datetime. -/
def CreatedAtShape (lib : Decoders) (data createdAt : JsonValue) : Prop :=
  ∃ value, createdAt = .string value ∧ ∀ time, lib.fromisoformat value = some time →
    ∀ taskId, data.subscript "task_id" = .ok taskId → TaskIdShape lib time taskId

/-- An object, whose fields are in shape as far as they are there. -/
def CursorShape (lib : Decoders) (data : JsonValue) : Prop :=
  (∃ members, data = .object members) ∧
    ∀ createdAt, data.subscript "created_at" = .ok createdAt → CreatedAtShape lib data createdAt

/-- What a cursor decodes to, as far as it does, has the shape, and the JSON
parser is not nested out of its stack. -/
def CursorText (lib : Decoders) (cursor : String) : Prop :=
  ∀ bytes, urlsafeB64decode cursor = some bytes → ∀ text, lib.utf8 bytes = some text →
    (∀ data, lib.jsonLoads text = .ok data → CursorShape lib data) ∧
      lib.jsonLoads text ≠ .error .recursionError

section Decoding

variable {lib : Decoders}

/-- Results of the `try` block that `Cursor.decode` handles. -/
def HandledInside (result : Except PyError DecodedCursor) : Prop :=
  Handled result ∨ result = .error .keyError

theorem handledInside_error {raised : PyError} :
    HandledInside (.error raised) ↔ raised = .valueError ∨ raised = .keyError := by
  simp [HandledInside, Handled]

theorem handledInside_ok {decoded : DecodedCursor} :
    HandledInside (.ok decoded) ↔ decoded.createdAt.utcoffset ≠ none := by
  simp [HandledInside, Handled]

theorem handled_decode {cursor : String} :
    Handled (cursorDecode lib cursor) ↔ HandledInside (cursorFields lib cursor) := by
  unfold cursorDecode HandledInside Handled
  cases cursorFields lib cursor with
  | ok decoded => simp
  | error raised => cases raised <;> simp

/-- The `try` block from the decoded JSON on. -/
def objectFields (lib : Decoders) (data : JsonValue) : Except PyError DecodedCursor :=
  (data.subscript "created_at").bind fun createdAt => (lib.isoDatetime createdAt).bind fun time =>
    (data.subscript "task_id").bind fun taskId => (lib.uuidOf taskId).bind fun uuid => .ok ⟨time, uuid⟩

theorem cursorFields_eq (cursor : String) : cursorFields lib cursor =
    (orValueError (urlsafeB64decode cursor)).bind fun bytes =>
      (orValueError (lib.utf8 bytes)).bind fun text => (lib.loads text).bind (objectFields lib) := rfl

theorem subscript_error {data : JsonValue} {key : String} {raised : PyError}
    (h : data.subscript key = .error raised) :
    raised = .keyError ∧ (∃ members, data = .object members) ∨
      raised = .typeError ∧ ¬∃ members, data = .object members := by
  cases data with
  | object members =>
    simp only [JsonValue.subscript] at h
    split at h
    · cases h
    · cases Except.error.inj h
      exact Or.inl ⟨rfl, members, rfl⟩
  | null | bool | number | string | array =>
    cases Except.error.inj h
    exact Or.inr ⟨rfl, by simp⟩

theorem object_of_subscript {data value : JsonValue} {key : String} (h : data.subscript key = .ok value) :
    ∃ members, data = .object members := by
  cases data with
  | object members => exact ⟨members, rfl⟩
  | null | bool | number | string | array => cases h

/-- What the task's identifier comes to, for a time that has been read. -/
theorem handled_uuid (time : PyDatetime) (taskId : JsonValue) :
    HandledInside ((lib.uuidOf taskId).bind fun uuid => .ok ⟨time, uuid⟩) ↔ TaskIdShape lib time taskId := by
  unfold TaskIdShape Decoders.uuidOf
  cases taskId with
  | string hex =>
    dsimp only
    cases found : lib.uuid hex with
    | none => simp [orValueError, Except.bind, handledInside_error, found]
    | some uuid => simp [orValueError, Except.bind, handledInside_ok, found]
  | null | bool | number | array | object => simp [Except.bind, handledInside_error]

theorem handled_fields {data : JsonValue} (object : ∃ members, data = .object members) (createdAt : JsonValue) :
    HandledInside ((lib.isoDatetime createdAt).bind fun time =>
        (data.subscript "task_id").bind fun taskId => (lib.uuidOf taskId).bind fun uuid => .ok ⟨time, uuid⟩) ↔
      CreatedAtShape lib data createdAt := by
  unfold CreatedAtShape Decoders.isoDatetime
  cases createdAt with
  | string value =>
    dsimp only
    cases parsed : lib.fromisoformat value with
    | none => simp [orValueError, Except.bind, handledInside_error, parsed]
    | some time =>
      cases second : data.subscript "task_id" with
      | error raised =>
        rcases subscript_error second with ⟨rfl, _⟩ | ⟨_, other⟩
        · simp [orValueError, Except.bind, handledInside_error]
        · exact absurd object other
      | ok taskId =>
        have each : HandledInside ((lib.uuidOf taskId).bind fun uuid => .ok ⟨time, uuid⟩) ↔
            TaskIdShape lib time taskId := handled_uuid time taskId
        simpa [orValueError, Except.bind, parsed] using each
  | null | bool | number | array | object => simp [Except.bind, handledInside_error]

theorem handled_objectFields (data : JsonValue) :
    HandledInside (objectFields lib data) ↔ CursorShape lib data := by
  unfold objectFields CursorShape
  cases first : data.subscript "created_at" with
  | error raised =>
    simp only [Except.bind, handledInside_error]
    rcases subscript_error first with ⟨rfl, object⟩ | ⟨rfl, other⟩
    · exact iff_of_true (Or.inr rfl) ⟨object, fun createdAt found => by cases found⟩
    · exact iff_of_false (by simp) fun shape => other shape.1
  | ok createdAt =>
    have object := object_of_subscript first
    refine (handled_fields object createdAt).trans ?_
    constructor
    · intro shape
      refine ⟨object, fun value found => ?_⟩
      cases Except.ok.inj found
      exact shape
    · exact fun shape => shape.2 createdAt rfl

end Decoding

/-- Every cursor of the right shape, and no other, is answered with a page or
with a 400. -/
theorem cursorDecode_handled_iff (lib : Decoders) (cursor : String) :
    (Handled (cursorDecode lib cursor) ↔ CursorText lib cursor) ∧
      ((routeCursor lib cursor = .error (.inl ⟨400, "invalid cursor format"⟩) ∨
          ∃ decoded, routeCursor lib cursor = .ok decoded ∧ decoded.createdAt.utcoffset ≠ none) ↔
        CursorText lib cursor) := by
  have decoding : Handled (cursorDecode lib cursor) ↔ CursorText lib cursor := by
    rw [handled_decode, cursorFields_eq]
    unfold CursorText
    cases decoded : urlsafeB64decode cursor with
    | none => simp [orValueError, Except.bind, handledInside_error]
    | some bytes =>
      cases characters : lib.utf8 bytes with
      | none => simp [orValueError, Except.bind, handledInside_error, characters]
      | some text =>
        unfold Decoders.loads
        cases parsed : lib.jsonLoads text with
        | ok data =>
          have fields : HandledInside (objectFields lib data) ↔ CursorShape lib data :=
            handled_objectFields data
          simpa [orValueError, Except.bind, characters, parsed] using fields
        | error failure =>
          cases failure with
          | decodeError => simp [orValueError, Except.bind, handledInside_error, characters, parsed]
          | recursionError => simp [orValueError, Except.bind, handledInside_error, characters, parsed]
  refine ⟨decoding, decoding.symm.trans ?_ |>.symm⟩
  unfold routeCursor Handled
  cases cursorDecode lib cursor with
  | ok decoded => simp
  | error raised => cases raised <;> simp

/-- Decoders that know ASCII text and the JSON value `null`. -/
def nullDecoders : Decoders where
  utf8 bytes := if bytes.all fun byte => decide (byte < 128) then some bytes else none
  jsonLoads text := if text = pyString "null" then .ok .null else .error .decodeError
  fromisoformat _ := none
  uuid _ := none

/-- The cursor of the JSON value `null`. -/
theorem cursorDecode_null : cursorDecode nullDecoders "bnVsbA==" = .error .typeError ∧
    ¬Handled (cursorDecode nullDecoders "bnVsbA==") ∧
    routeCursor nullDecoders "bnVsbA==" = .error (.inr .typeError) := by
  have raised : cursorDecode nullDecoders "bnVsbA==" = .error .typeError := by rfl
  refine ⟨raised, ?_, ?_⟩
  · rw [raised]
    simp [Handled]
  · unfold routeCursor
    rw [raised]

end DomainProcessing
