import DomainProcessing.JsonText

namespace DomainProcessing

/-- `_LOG_RECORD_RESERVED` -/
def logRecordReserved : List String :=
  ["args", "asctime", "created", "exc_info", "exc_text", "filename", "funcName", "levelname", "levelno",
    "lineno", "module", "msecs", "message", "msg", "name", "pathname", "process", "processName",
    "relativeCreated", "stack_info", "taskName", "thread", "threadName"]

/-- The names that `Logger.makeRecord` refuses in `extra`: those of a new record, and
the two that it is going to get. -/
def overwritten : List String :=
  ["message", "asctime", "name", "msg", "args", "levelname", "levelno", "pathname", "filename", "module",
    "exc_info", "exc_text", "stack_info", "lineno", "funcName", "created", "msecs", "relativeCreated",
    "thread", "threadName", "processName", "process"]

/-- A dictionary with text keys, in the order of insertion. -/
structure Fields (β : Type*) where
  entries : List (String × β)
  nodup : (entries.map Prod.fst).Nodup

/-- A `LogRecord` with the attributes that it has beside those of every record. The
value `none` is Python's `None`; a value that is not JSON is there as its `str`. -/
structure LogRecord where
  timestamp : String
  levelname : String
  name : String
  message : String
  excInfo : Option String
  attributes : Fields (Option Json)

/-- A number is written without a digit but 0 only if it is zero. -/
def JsonNumber.isZero (n : JsonNumber) : Bool :=
  (n.text.takeWhile fun c => c != 'e' && c != 'E').all fun c => !c.isDigit || c == '0'

def Json.truthy : Json → Bool
  | .null => false
  | .bool value => value
  | .number n => !n.isZero
  | .string s => s != ""
  | .array items => !items.isEmpty
  | .object members => !members.isEmpty

/-- `getattr(record, key, None)`, where `None` and a missing attribute are one. -/
def LogRecord.getattr (record : LogRecord) (key : String) : Option Json :=
  ((record.attributes.entries.find? fun entry => entry.1 == key).bind Prod.snd)

namespace JsonFormatter

def event (record : LogRecord) : Json :=
  match record.attributes.entries.find? fun entry => entry.1 == "event" with
  | some (_, value) => value.getD .null
  | none => .string record.message

/-- The request of the record, or else that of the context. -/
def requestId (context : Option String) (record : LogRecord) : Option Json :=
  match record.getattr "request_id" with
  | some value => if value.truthy then some value else context.map .string
  | none => context.map .string

def core (context : Option String) (record : LogRecord) : List (String × Json) :=
  [("timestamp", .string record.timestamp), ("level", .string record.levelname),
      ("logger", .string record.name), ("event", event record)] ++
    match requestId context record with
    | some value => if value.truthy then [("request_id", value)] else []
    | none => []

/-- The attributes of the record that go into the payload, for the keys it has so far. -/
def extraFields (present : List String) : List (String × Option Json) → List (String × Json)
  | [] => []
  | (_, none) :: rest => extraFields present rest
  | (key, some value) :: rest =>
    if key ∈ logRecordReserved ∨ key ∈ present then extraFields present rest
    else (key, value) :: extraFields (present ++ [key]) rest

def payload (context : Option String) (record : LogRecord) : List (String × Json) :=
  core context record ++
    extraFields ((core context record).map Prod.fst) record.attributes.entries ++
    match record.excInfo with
    | some text => [("exc_info", .string text)]
    | none => []

def format (context : Option String) (record : LogRecord) : List Char :=
  (Json.object (payload context record)).dumps

end JsonFormatter

/-- The attributes that `log_event` passes as `extra`. -/
structure EventFields extends Fields (Option Json) where
  fresh : "event" ∉ entries.map Prod.fst

def EventFields.extra (event : String) (fields : EventFields) : Fields (Option Json) where
  entries := ("event", some (.string event)) :: fields.entries
  nodup := List.nodup_cons.mpr ⟨fields.fresh, fields.nodup⟩

theorem append_nodup {attributes : Fields (Option Json)} {key : String} (value : Option Json)
    (fresh : key ∉ attributes.entries.map Prod.fst) :
    ((attributes.entries ++ [(key, value)]).map Prod.fst).Nodup := by
  rw [List.map_append]
  exact List.nodup_append'.mpr ⟨attributes.nodup, List.nodup_singleton key,
    List.disjoint_singleton.mpr fresh⟩

/-- `RequestContextFilter.filter` -/
def contextFilter (context : Option String) (attributes : Fields (Option Json)) :
    Fields (Option Json) :=
  if fresh : "request_id" ∉ attributes.entries.map Prod.fst then
    ⟨attributes.entries ++ [("request_id", context.map .string)], append_nodup _ fresh⟩
  else attributes

/-- What `log_event` hands to the formatter, or the `KeyError` of `makeRecord`. -/
def logEvent (context : Option String) (timestamp levelname name event : String) (fields : EventFields) :
    Except String LogRecord :=
  match (fields.extra event).entries.find? fun entry => overwritten.contains entry.1 with
  | some entry => .error ("Attempt to overwrite '" ++ entry.1 ++ "' in LogRecord")
  | none => .ok ⟨timestamp, levelname, name, event, none, contextFilter context (fields.extra event)⟩

variable {context : Option String} {record : LogRecord} {timestamp levelname name event : String}
  {fields : EventFields}

theorem extraFields_names (present : List String) (entries : List (String × Option Json)) :
    ((JsonFormatter.extraFields present entries).map Prod.fst).Nodup ∧
      ∀ key ∈ (JsonFormatter.extraFields present entries).map Prod.fst,
        key ∉ present ∧ key ∉ logRecordReserved := by
  induction entries generalizing present with
  | nil => exact ⟨List.nodup_nil, nofun⟩
  | cons entry rest ih =>
    obtain ⟨key, _ | value⟩ := entry
    · exact ih present
    · rw [JsonFormatter.extraFields]
      split
      next => exact ih present
      next kept =>
        obtain ⟨distinct, fresh⟩ := ih (present ++ [key])
        rw [not_or] at kept
        rw [List.map_cons]
        refine ⟨List.nodup_cons.mpr ⟨fun again => ?_, distinct⟩, ?_⟩
        · exact (fresh key again).1 (List.mem_append_right _ List.mem_cons_self)
        · intro other mem
          rcases List.mem_cons.mp mem with rfl | later
          · exact ⟨kept.2, kept.1⟩
          · obtain ⟨unseen, free⟩ := fresh other later
            exact ⟨fun seen => unseen (List.mem_append_left _ seen), free⟩

theorem mem_extraFields {present : List String} {entries : List (String × Option Json)} {key : String}
    {value : Json} (distinct : (entries.map Prod.fst).Nodup) (mem : (key, some value) ∈ entries)
    (unseen : key ∉ present) (free : key ∉ logRecordReserved) :
    (key, value) ∈ JsonFormatter.extraFields present entries := by
  induction entries generalizing present with
  | nil => cases mem
  | cons entry rest ih =>
    rw [List.map_cons, List.nodup_cons] at distinct
    rcases List.mem_cons.mp mem with same | later
    · rw [← same, JsonFormatter.extraFields, if_neg (not_or.mpr ⟨free, unseen⟩)]
      exact List.mem_cons_self
    · obtain ⟨other, _ | given⟩ := entry
      · exact ih distinct.2 later unseen
      · have apart : key ≠ other := by
          intro same
          have listed : key ∈ rest.map Prod.fst := List.mem_map_of_mem later
          exact distinct.1 (same ▸ listed)
        rw [JsonFormatter.extraFields]
        split
        next => exact ih distinct.2 later unseen
        next =>
          refine List.mem_cons_of_mem _ (ih distinct.2 later ?_)
          simp [unseen, apart]

theorem core_names (context : Option String) (record : LogRecord) :
    (JsonFormatter.core context record).map Prod.fst = ["timestamp", "level", "logger", "event"] ∨
      (JsonFormatter.core context record).map Prod.fst =
        ["timestamp", "level", "logger", "event", "request_id"] := by
  unfold JsonFormatter.core
  split
  next =>
    split
    next => exact Or.inr rfl
    next => exact Or.inl rfl
  next => exact Or.inl rfl

theorem core_nodup (context : Option String) (record : LogRecord) :
    ((JsonFormatter.core context record).map Prod.fst).Nodup ∧
      "exc_info" ∉ (JsonFormatter.core context record).map Prod.fst := by
  rcases core_names context record with names | names
  · rw [names]
    decide
  · rw [names]
    decide

theorem payload_nodup (context : Option String) (record : LogRecord) :
    ((JsonFormatter.payload context record).map Prod.fst).Nodup := by
  obtain ⟨distinct, plain⟩ := core_nodup context record
  obtain ⟨others, fresh⟩ := extraFields_names ((JsonFormatter.core context record).map Prod.fst)
    record.attributes.entries
  have both : (((JsonFormatter.core context record) ++ JsonFormatter.extraFields
      ((JsonFormatter.core context record).map Prod.fst) record.attributes.entries).map Prod.fst).Nodup := by
    rw [List.map_append]
    exact List.nodup_append'.mpr ⟨distinct, others, fun key first second => (fresh key second).1 first⟩
  unfold JsonFormatter.payload
  rw [List.map_append]
  refine List.nodup_append'.mpr ⟨both, ?_, ?_⟩
  · split
    next => exact List.nodup_singleton _
    next => exact List.nodup_nil
  · intro key mem last
    have exc : key = "exc_info" := by
      split at last
      next => exact List.mem_singleton.mp last
      next => cases last
    subst exc
    rw [List.map_append, List.mem_append] at mem
    rcases mem with first | second
    · exact plain first
    · exact (fresh _ second).2 (by decide)

theorem logEvent_ok (h : logEvent context timestamp levelname name event fields = .ok record) :
    record = ⟨timestamp, levelname, name, event, none, contextFilter context (fields.extra event)⟩ ∧
      ∀ key ∈ fields.entries.map Prod.fst, key ∉ overwritten := by
  unfold logEvent at h
  split at h
  next => cases h
  next clear_names =>
    refine ⟨(Except.ok.inj h).symm, ?_⟩
    intro key mem refused
    obtain ⟨entry, listed, rfl⟩ := List.mem_map.mp mem
    have none_found := List.find?_eq_none.mp clear_names entry (List.mem_cons_of_mem _ listed)
    exact none_found (List.contains_iff_mem.mpr refused)

/-- The fields of the event stand among the attributes of the record. -/
theorem mem_contextFilter {attributes : Fields (Option Json)} {entry : String × Option Json}
    (mem : entry ∈ attributes.entries) : entry ∈ (contextFilter context attributes).entries := by
  unfold contextFilter
  split
  next => exact List.mem_append_left _ mem
  next => exact mem

/-- What the formatter makes of an event's own attribute. -/
theorem event_of_extra (context : Option String) (fields : EventFields) :
    JsonFormatter.event ⟨timestamp, levelname, name, event, none, contextFilter context (fields.extra event)⟩ =
      .string event := by
  unfold JsonFormatter.event contextFilter
  split
  next found =>
    split at found
    next => simp [EventFields.extra] at found; simp [← found]
    next => simp [EventFields.extra] at found; simp [← found]
  next => rfl

/-- A line carries the request of its context, when no field names another. -/
theorem core_request {id : String} (some_text : id ≠ "")
    (unnamed : "request_id" ∉ fields.entries.map Prod.fst) :
    ("request_id", Json.string id) ∈ JsonFormatter.core (some id)
      ⟨timestamp, levelname, name, event, none, contextFilter (some id) (fields.extra event)⟩ := by
  have absent : "request_id" ∉ (fields.extra event).entries.map Prod.fst := by
    intro listed
    rcases List.mem_cons.mp listed with same | later
    · have apart : ("request_id" : String) ≠ "event" := by decide
      exact apart same
    · exact unnamed later
  have unseen : (fields.extra event).entries.find? (fun entry => entry.1 == "request_id") = none := by
    refine List.find?_eq_none.mpr fun entry mem same => ?_
    exact absent (eq_of_beq same ▸ List.mem_map_of_mem mem)
  have found : (contextFilter (some id) (fields.extra event)).entries.find?
      (fun entry => entry.1 == "request_id") = some ("request_id", some (.string id)) := by
    unfold contextFilter
    rw [dif_pos absent, List.find?_append, unseen]
    rfl
  have truth : (Json.string id).truthy = true := by simp [Json.truthy, some_text]
  have request : JsonFormatter.requestId (some id)
      ⟨timestamp, levelname, name, event, none, contextFilter (some id) (fields.extra event)⟩ =
        some (.string id) := by
    unfold JsonFormatter.requestId LogRecord.getattr
    rw [found]
    exact if_pos truth
  unfold JsonFormatter.core
  rw [request]
  simp only [truth, if_true]
  exact List.mem_append_right _ List.mem_cons_self

/-- The names that a field cannot have in a line. -/
def taken : List String := ["timestamp", "level", "logger", "event", "request_id", "taskName"]

/-- `log_event` raises exactly if a field has the name of an attribute of the record. -/
theorem logEvent_raises_iff : (∃ error, logEvent context timestamp levelname name event fields = .error error) ↔
    ∃ key ∈ fields.entries.map Prod.fst, key ∈ overwritten := by
  unfold logEvent
  split
  next entry found =>
    refine iff_of_true ⟨_, rfl⟩ ?_
    have refused : entry.1 ∈ overwritten := by simpa using List.find?_some found
    rcases List.mem_cons.mp (List.mem_of_find?_eq_some found) with same | listed
    · rw [same] at refused
      have apart : ("event" : String) ∉ overwritten := by decide
      exact absurd refused apart
    · exact ⟨entry.1, List.mem_map_of_mem listed, refused⟩
  next none_found =>
    refine iff_of_false nofun ?_
    rintro ⟨key, mem, refused⟩
    obtain ⟨entry, listed, rfl⟩ := List.mem_map.mp mem
    exact List.find?_eq_none.mp none_found entry (List.mem_cons_of_mem _ listed)
      (List.contains_iff_mem.mpr refused)

/-- A domain that tries to end the line and to begin another. -/
def forgedFields : EventFields where
  entries := [("domain", some (.string "a\n\x7b\"level\":\"ERROR\"")), ("timestamp", some (.string "")),
    ("job_id", none)]
  nodup := by decide
  fresh := by decide

/-- The fields that the shutdown logs when the grace period is over. -/
def timeoutFields : EventFields where
  entries := [("message", some (.string "Worker pool drain timed out, forcing stop")),
    ("grace_seconds", some (.string "30"))]
  nodup := by decide
  fresh := by decide

example : ∃ error, logEvent none "" "WARNING" "shutdown" "shutdown.timeout" timeoutFields = .error error :=
  logEvent_raises_iff.mpr ⟨"message", by decide, by decide⟩

end DomainProcessing
