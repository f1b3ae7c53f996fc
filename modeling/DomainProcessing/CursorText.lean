import DomainProcessing.IsoFormat
import DomainProcessing.JsonText
import DomainProcessing.Pagination
import DomainProcessing.Utf8

namespace DomainProcessing

open FixedDigits Runs Tables

def base64Digit (n : Nat) : Char :=
  if n < 26 then Char.ofNat (n + 65)
  else if n < 52 then Char.ofNat (n + 71)
  else if n < 62 then Char.ofNat (n - 4)
  else if n = 62 then '-'
  else '_'

/-- `base64.urlsafe_b64encode` -/
def b2aBase64 : List Nat → List Char
  | [] => []
  | [a] => [base64Digit (a / 4), base64Digit (a % 4 * 16), '=', '=']
  | [a, b] => [base64Digit (a / 4), base64Digit (a % 4 * 16 + b / 16), base64Digit (b % 16 * 4), '=']
  | a :: b :: c :: bytes =>
    base64Digit (a / 4) :: base64Digit (a % 4 * 16 + b / 16) :: base64Digit (b % 16 * 4 + c / 64) ::
      base64Digit (c % 64) :: b2aBase64 bytes

/-- `str(uuid)` -/
def uuidText (taskId : TaskId) : List Char :=
  let hex := digits 16 32 taskId
  hex.take 8 ++ '-' :: ((hex.drop 8).take 4 ++ '-' :: ((hex.drop 12).take 4 ++
    '-' :: ((hex.drop 16).take 4 ++ '-' :: hex.drop 20)))

/-- `UUID(hex)`, without a prefix or braces. -/
def readUuid (s : List Char) : Option TaskId :=
  match readDigits hexDigitValue 16 0 32 (s.filter fun c => decide (c ≠ '-')) with
  | some (taskId, []) => some taskId
  | _ => none

def cursorJson (cursor : DecodedCursor) : Json :=
  .object [("created_at", .string (String.ofList cursor.createdAt.isoformat)),
    ("task_id", .string (String.ofList (uuidText cursor.taskId)))]

def cursorEncode (cursor : DecodedCursor) : String :=
  String.ofList (b2aBase64 (Utf8.encode (cursorJson cursor).dumps))

example : cursorEncode ⟨⟨0, some 0⟩, 1⟩ = cursorText 1 := by decide +kernel

/-- The members of an object of strings. -/
def stringMembers (members : List (String × Json)) : Option (List (PyString × JsonValue)) :=
  members.mapM fun member =>
    match member.2 with
    | .string value => some (pyString member.1, .string (pyString value))
    | _ => none

def readText (text : PyString) : List Char := text.map Char.ofNat

/-- Decoders of ASCII text, of a JSON object of strings without white space, of
the times that `isoformat` writes and of a plain UUID. -/
def plainDecoders : Decoders where
  utf8 bytes := if bytes.all fun byte => decide (byte < 128) then some bytes else none
  jsonLoads text :=
    match readJson (readText text) with
    | some (.object members) =>
      match stringMembers members with
      | some members => .ok (.object members)
      | none => .error .decodeError
    | _ => .error .decodeError
  fromisoformat text := readIsoformat (readText text)
  uuid text := readUuid (readText text)

/-- What the plain decoders read, the library reads as they do. -/
structure Decoders.ReadsPlain (lib : Decoders) : Prop where
  utf8 : ∀ bytes text, plainDecoders.utf8 bytes = some text → lib.utf8 bytes = some text
  jsonLoads : ∀ text data, plainDecoders.jsonLoads text = .ok data → lib.jsonLoads text = .ok data
  fromisoformat : ∀ text time, plainDecoders.fromisoformat text = some time →
    lib.fromisoformat text = some time
  uuid : ∀ text taskId, plainDecoders.uuid text = some taskId → lib.uuid text = some taskId

theorem valid_utc {wall : Int} (first : -62135596800000000 ≤ wall) (last : wall < 253402300800000000) :
    (PyDatetime.mk wall (some 0)).Valid := by
  refine ⟨first, last, ?_, ?_⟩
  · intro offset h
    cases h
    decide
  · intro offset h
    exact Or.inl (Option.some.inj h).symm

/-- A cursor whose fields are in the range of their types. -/
structure DecodedCursor.Valid (cursor : DecodedCursor) : Prop where
  createdAt : cursor.createdAt.Valid
  taskId : cursor.taskId < 2 ^ 128

section Base64

theorem base64Value_base64Digit {n : Nat} (h : n < 64) :
    base64Value (base64Digit n) = some n ∧ base64Digit n ≠ '=' := by
  have all : ∀ n < 64, base64Value (base64Digit n) = some n ∧ base64Digit n ≠ '=' := by decide
  exact all n h

variable {leftchar pads n : Nat}

theorem a2bBase64_first (h : n < 64) (rest : List Char) :
    a2bBase64 0 leftchar pads (base64Digit n :: rest) = a2bBase64 1 n 0 rest := by
  obtain ⟨value, other⟩ := base64Value_base64Digit h
  simp only [a2bBase64, if_neg other, value]

theorem a2bBase64_second (h : n < 64) (rest : List Char) :
    a2bBase64 1 leftchar pads (base64Digit n :: rest) =
      (a2bBase64 2 (n % 16) 0 rest).map ((leftchar * 4 + n / 16) :: ·) := by
  obtain ⟨value, other⟩ := base64Value_base64Digit h
  simp only [a2bBase64, if_neg other, value]

theorem a2bBase64_third (h : n < 64) (rest : List Char) :
    a2bBase64 2 leftchar pads (base64Digit n :: rest) =
      (a2bBase64 3 (n % 4) 0 rest).map ((leftchar * 16 + n / 4) :: ·) := by
  obtain ⟨value, other⟩ := base64Value_base64Digit h
  simp only [a2bBase64, if_neg other, value]

theorem a2bBase64_fourth (h : n < 64) (rest : List Char) :
    a2bBase64 3 leftchar pads (base64Digit n :: rest) =
      (a2bBase64 0 0 0 rest).map ((leftchar * 64 + n) :: ·) := by
  obtain ⟨value, other⟩ := base64Value_base64Digit h
  simp only [a2bBase64, if_neg other, value]

/-- Bytes are read back from their base64 text. -/
theorem a2bBase64_b2aBase64 (bytes : List Nat) (small : ∀ byte ∈ bytes, byte < 256) :
    a2bBase64 0 0 0 (b2aBase64 bytes) = some bytes := by
  induction bytes using b2aBase64.induct with
  | case1 => rfl
  | case2 a =>
    have ha := small a (by simp)
    have first : a / 4 * 4 + a % 4 * 16 / 16 = a := by omega
    rw [b2aBase64, a2bBase64_first (by omega), a2bBase64_second (by omega), first]
    rfl
  | case3 a b =>
    have ha := small a (by simp)
    have hb := small b (by simp)
    have first : a / 4 * 4 + (a % 4 * 16 + b / 16) / 16 = a := by omega
    have second : (a % 4 * 16 + b / 16) % 16 * 16 + b % 16 * 4 / 4 = b := by omega
    rw [b2aBase64, a2bBase64_first (by omega), a2bBase64_second (by omega), a2bBase64_third (by omega),
      first, second]
    rfl
  | case4 a b c bytes ih =>
    have ha := small a (by simp)
    have hb := small b (by simp)
    have hc := small c (by simp)
    have later := ih fun byte mem => small byte (by simp [mem])
    have first : a / 4 * 4 + (a % 4 * 16 + b / 16) / 16 = a := by omega
    have second : (a % 4 * 16 + b / 16) % 16 * 16 + (b % 16 * 4 + c / 64) / 4 = b := by omega
    have third : (b % 16 * 4 + c / 64) % 4 * 64 + c % 64 = c := by omega
    rw [b2aBase64, a2bBase64_first (by omega), a2bBase64_second (by omega), a2bBase64_third (by omega),
      a2bBase64_fourth (by omega), later, first, second, third]
    rfl

def isUrlSafe (c : Char) : Bool := c.isAlphanum || "-_=".toList.contains c

theorem base64Digit_urlSafe {n : Nat} (h : n < 64) : isUrlSafe (base64Digit n) = true := by
  have all : ∀ n < 64, isUrlSafe (base64Digit n) = true := by decide
  exact all n h

theorem b2aBase64_urlSafe (bytes : List Nat) (small : ∀ byte ∈ bytes, byte < 256) :
    (b2aBase64 bytes).all isUrlSafe = true := by
  have padding : isUrlSafe '=' = true := by decide
  induction bytes using b2aBase64.induct with
  | case1 => rfl
  | case2 a =>
    have ha := small a (by simp)
    simp [b2aBase64, padding, @base64Digit_urlSafe (a / 4) (by omega),
      @base64Digit_urlSafe (a % 4 * 16) (by omega)]
  | case3 a b =>
    have ha := small a (by simp)
    have hb := small b (by simp)
    simp [b2aBase64, padding, @base64Digit_urlSafe (a / 4) (by omega),
      @base64Digit_urlSafe (a % 4 * 16 + b / 16) (by omega), @base64Digit_urlSafe (b % 16 * 4) (by omega)]
  | case4 a b c bytes ih =>
    have ha := small a (by simp)
    have hb := small b (by simp)
    have hc := small c (by simp)
    have later := ih fun byte mem => small byte (by simp [mem])
    simp only [b2aBase64, List.all_cons, later, @base64Digit_urlSafe (a / 4) (by omega),
      @base64Digit_urlSafe (a % 4 * 16 + b / 16) (by omega),
      @base64Digit_urlSafe (b % 16 * 4 + c / 64) (by omega), @base64Digit_urlSafe (c % 64) (by omega)]
    rfl

end Base64

section Fields

theorem readUuid_uuidText {taskId : TaskId} (h : taskId < 2 ^ 128) :
    readUuid (uuidText taskId) = some taskId := by
  have reads : ∀ digit < 16, hexDigitValue digit.digitChar = some digit := fun digit small =>
    hexDigitValue_digitChar small
  have plain : ∀ c ∈ digits 16 32 taskId, decide (c ≠ '-') = true := by
    intro c mem
    obtain ⟨digit, small, rfl⟩ := mem_digits (by decide) mem
    have apart : ∀ digit < 16, decide (digit.digitChar ≠ '-') = true := by decide
    exact apart digit small
  have filtered : (uuidText taskId).filter (fun c => decide (c ≠ '-')) = digits 16 32 taskId := by
    unfold uuidText
    generalize digits 16 32 taskId = hex at plain
    have kept : ∀ part : List Char, part ⊆ hex → part.filter (fun c => decide (c ≠ '-')) = part :=
      fun part within => List.filter_eq_self.mpr fun c mem => plain c (within mem)
    have inner : ∀ k, ((hex.drop k).take 4).filter (fun c => decide (c ≠ '-')) = (hex.drop k).take 4 :=
      fun k => kept _ fun c mem => List.mem_of_mem_drop (List.mem_of_mem_take mem)
    have none_left : decide ('-' ≠ '-') = false := by decide
    have pieces : ∀ k, (hex.drop k).take 4 ++ hex.drop (k + 4) = hex.drop k := by
      intro k
      rw [← List.drop_drop]
      exact List.take_append_drop 4 (hex.drop k)
    simp only [List.filter_append, List.filter_cons, none_left, Bool.false_eq_true, if_false,
      kept _ (List.take_subset 8 hex), kept _ (List.drop_subset 20 hex), inner, pieces]
    exact List.take_append_drop 8 hex
  have read := @readDigits_of_lt hexDigitValue 16 (by decide) reads 32 taskId (by omega) []
  rw [List.append_nil] at read
  rw [readUuid, filtered, read]

theorem readText_toNat (s : List Char) : readText (s.map Char.toNat) = s := by
  have each : s.map (Char.ofNat ∘ Char.toNat) = s.map id :=
    List.map_congr_left fun c _ => Char.ofNat_toNat c
  rw [readText, List.map_map, each, List.map_id]

theorem readText_pyString (s : List Char) : readText (pyString (String.ofList s)) = s := by
  rw [pyString, String.toList_ofList, readText_toNat]

theorem dumps_ascii (v : Json) : ∀ c ∈ v.dumps, c.toNat < 128 := by
  intro c mem
  have printable := List.all_eq_true.mp (dumps_printable v) c mem
  simp only [isPrintable, Bool.and_eq_true, decide_eq_true_eq] at printable
  omega

variable {lib : Decoders} {cursor : DecodedCursor}

theorem urlsafeB64decode_cursorEncode :
    urlsafeB64decode (cursorEncode cursor) = some ((cursorJson cursor).dumps.map Char.toNat) := by
  have bytes := Utf8.encode_ascii (dumps_ascii (cursorJson cursor))
  have read := a2bBase64_b2aBase64 (Utf8.encode (cursorJson cursor).dumps) fun byte => Utf8.encode_lt
  rw [urlsafeB64decode, cursorEncode, String.toList_ofList, read, bytes]

theorem Decoders.ReadsPlain.text (reads : lib.ReadsPlain) {s : List Char} (ascii : ∀ c ∈ s, c.toNat < 128) :
    lib.utf8 (s.map Char.toNat) = some (s.map Char.toNat) := by
  refine reads.utf8 _ _ (if_pos ?_)
  simpa using ascii

/-- The members of a cursor's object, as they are loaded. -/
def cursorMembers (cursor : DecodedCursor) : List (PyString × JsonValue) :=
  [(pyString "created_at", .string (pyString (String.ofList cursor.createdAt.isoformat))),
    (pyString "task_id", .string (pyString (String.ofList (uuidText cursor.taskId))))]

theorem Decoders.ReadsPlain.loads (reads : lib.ReadsPlain) :
    lib.loads ((cursorJson cursor).dumps.map Char.toNat) = .ok (.object (cursorMembers cursor)) := by
  have plain : plainDecoders.jsonLoads ((cursorJson cursor).dumps.map Char.toNat) =
      .ok (.object (cursorMembers cursor)) := by
    simp only [plainDecoders, readText_toNat, readJson_dumps]
    rfl
  rw [Decoders.loads, reads.jsonLoads _ _ plain]

theorem cursorMembers_createdAt : (JsonValue.object (cursorMembers cursor)).subscript "created_at" =
    .ok (.string (pyString (String.ofList cursor.createdAt.isoformat))) := by
  have other : decide (pyString "task_id" = pyString "created_at") = false := by decide
  simp [JsonValue.subscript, cursorMembers, other]

theorem cursorMembers_taskId : (JsonValue.object (cursorMembers cursor)).subscript "task_id" =
    .ok (.string (pyString (String.ofList (uuidText cursor.taskId)))) := by
  simp [JsonValue.subscript, cursorMembers]

theorem Decoders.ReadsPlain.isoDatetime (reads : lib.ReadsPlain) {time : PyDatetime} (valid : time.Valid) :
    lib.isoDatetime (.string (pyString (String.ofList time.isoformat))) = .ok time := by
  have plain : plainDecoders.fromisoformat (pyString (String.ofList time.isoformat)) = some time := by
    simp only [plainDecoders, readText_pyString, readIsoformat_isoformat valid]
  simp only [Decoders.isoDatetime, reads.fromisoformat _ _ plain, orValueError]

theorem Decoders.ReadsPlain.uuidOf (reads : lib.ReadsPlain) {taskId : TaskId} (valid : taskId < 2 ^ 128) :
    lib.uuidOf (.string (pyString (String.ofList (uuidText taskId)))) = .ok taskId := by
  have plain : plainDecoders.uuid (pyString (String.ofList (uuidText taskId))) = some taskId := by
    simp only [plainDecoders, readText_pyString, readUuid_uuidText valid]
  simp only [Decoders.uuidOf, reads.uuid _ _ plain, orValueError]

theorem decode_encode (reads : lib.ReadsPlain) (valid : cursor.Valid) :
    cursorDecode lib (cursorEncode cursor) = .ok cursor := by
  have fields : cursorFields lib (cursorEncode cursor) = .ok cursor := by
    rw [cursorFields_eq, urlsafeB64decode_cursorEncode]
    simp only [orValueError, Except.bind, reads.text (dumps_ascii (cursorJson cursor)), reads.loads,
      objectFields, cursorMembers_createdAt, cursorMembers_taskId, reads.isoDatetime valid.createdAt,
      reads.uuidOf valid.taskId]
  rw [cursorDecode, fields]

end Fields

theorem plainDecoders_readsPlain : plainDecoders.ReadsPlain :=
  ⟨fun _ _ h => h, fun _ _ h => h, fun _ _ h => h, fun _ _ h => h⟩

/-- A task's time is in UTC; a cursor is compared by its instant. -/
def cursorCodec (lib : Decoders) : CursorCodec where
  encode cursor := cursorEncode ⟨⟨cursor.createdAt, some 0⟩, cursor.taskId⟩
  decode text :=
    match cursorDecode lib text with
    | .ok ⟨⟨wall, some offset⟩, taskId⟩ => some ⟨wall - offset, taskId⟩
    | _ => none

/-- `created_at` and `id` are in the range of their column types. -/
structure Task.Storable (t : Task) : Prop where
  first : -62135596800000000 ≤ t.createdAt
  last : t.createdAt < 253402300800000000
  id : t.id < 2 ^ 128

theorem cursorCodec_decodes {lib : Decoders} (reads : lib.ReadsPlain) {t : Task} (storable : t.Storable) :
    (cursorCodec lib).decode ((cursorCodec lib).encode t.cursor) = some t.cursor := by
  have decoded := @decode_encode lib ⟨⟨t.createdAt, some 0⟩, t.id⟩ reads
    ⟨valid_utc storable.first storable.last, storable.id⟩
  simp only [cursorCodec, decoded, Task.cursor]
  rw [Int.sub_zero]

/-- A reader who was not disturbed is not disturbed by one step more. -/
theorem KeepsListing.step {jobId : JobId} {first before after : Db} (kept : KeepsListing jobId first before)
    (found : (first.jobs.get jobId).isSome)
    (next : ∀ job ∈ before.jobs.rows, KeepsListing job.id before after) : KeepsListing jobId first after := by
  obtain ⟨job, stored⟩ := Option.isSome_iff_exists.mp (kept.job found)
  obtain ⟨mem, named⟩ := Table.get_eq_some_iff.mp stored
  have more := next job mem
  rw [named] at more
  exact ⟨fun h => more.job (kept.job h), more.tasks.trans kept.tasks⟩

/-- No run of the service disturbs a reader of the job. -/
theorem keepsListing_of_run {maxAttempts : Nat} {s s' : ServiceState}
    {trace : List (ServiceState × ServiceOp)} (run : ServiceRun maxAttempts s trace s') {job : Job}
    (stored : job ∈ s.db.jobs.rows) : KeepsListing job.id s.db s'.db := by
  have found : (s.db.jobs.get job.id).isSome :=
    Option.isSome_iff_exists.mpr ⟨job, Table.get_eq_some_iff.mpr ⟨stored, rfl⟩⟩
  refine run.invariant (P := fun t => KeepsListing job.id s.db t.db)
    ⟨fun h => h, List.Perm.refl _⟩ fun kept next => ?_
  exact kept.step found fun _ mem => keepsListing_of_serviceNext next mem

section Reader

variable {settings : AppSettings} {lib : Decoders} {maxAttempts : Nat} {s : Nat → ServiceState}
  {job : Job} {limits : Nat → Option Int}

end Reader

/-- The state before the first request, and from the second one on. -/
def readStates : Nat → ServiceState
  | 0 => ⟨(createJob tiedSubmission .empty).1, []⟩
  | _ + 1 => ⟨{ (createJob tiedSubmission .empty).1 with
      tasks := (claimTasks 5 120 none 0 (createJob tiedSubmission .empty).1.tasks).1 }, [1, 2, 3]⟩

end DomainProcessing
