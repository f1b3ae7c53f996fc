import Mathlib.Data.List.Nodup
import Mathlib.Logic.Function.Basic

namespace RelationalSchema

inductive ColumnType
  | uuid
  | string
  | boolean
  | integer
  | timestamp
  | jsonb
  | enum (name : String)
  deriving DecidableEq, Repr

structure Column where
  name : String
  type : ColumnType
  nullable : Bool
  deriving DecidableEq, Repr

structure ForeignKey where
  column : String
  table : String
  target : String
  deriving DecidableEq, Repr

structure UniqueKey where
  name : String
  columns : List String
  deriving DecidableEq, Repr

structure TableDef where
  name : String
  columns : List Column
  primaryKey : List String
  foreignKeys : List ForeignKey
  uniques : List UniqueKey
  deriving DecidableEq, Repr

structure Index where
  name : String
  table : String
  columns : List String
  unique : Bool
  deriving DecidableEq, Repr

structure Schema where
  types : List (String × List String)
  tables : List TableDef
  indexes : List Index
  deriving DecidableEq, Repr

def Schema.empty : Schema := ⟨[], [], []⟩

mutual

/-- A `jsonb` value without its numbers. -/
inductive Jsonb
  | null
  | bool (b : Bool)
  | string (s : String)
  | array (items : JsonbItems)
  | object (members : JsonbMembers)
  deriving DecidableEq, Repr

inductive JsonbItems
  | nil
  | cons (item : Jsonb) (rest : JsonbItems)
  deriving DecidableEq, Repr

inductive JsonbMembers
  | nil
  | cons (key : String) (value : Jsonb) (rest : JsonbMembers)
  deriving DecidableEq, Repr

end

def Jsonb.ofItems (items : List Jsonb) : Jsonb := .array (items.foldr .cons .nil)

/-- Shorter keys come first. -/
def keyBefore (key key' : String) : Bool :=
  key.utf8ByteSize < key'.utf8ByteSize || (key.utf8ByteSize == key'.utf8ByteSize && key < key')

/-- The members are in the order of their keys, and of two with one key the later is kept. -/
def JsonbMembers.set (key : String) (value : Jsonb) : JsonbMembers → JsonbMembers
  | .nil => .cons key value .nil
  | .cons key' value' rest =>
    if key = key' then .cons key value rest
    else if keyBefore key key' then .cons key value (.cons key' value' rest)
    else .cons key' value' (rest.set key value)

def Jsonb.ofMembers (members : List (String × Jsonb)) : Jsonb :=
  .object (members.foldl (fun set member => set.set member.1 member.2) .nil)

example : Jsonb.ofMembers [("code", .null), ("b", .null), ("a", .null), ("b", .bool true)] =
    .object (.cons "a" .null (.cons "b" (.bool true) (.cons "code" .null .nil))) := by decide +kernel

/-- A value of a column; a timestamp counts microseconds from 1970. -/
inductive Value
  | uuid (n : Nat)
  | text (s : String)
  | bool (b : Bool)
  | int (i : Int)
  | timestamp (t : Int)
  | json (j : Jsonb)
  | label (s : String)
  deriving DecidableEq, Repr

/-- The columns of a row; `none` is `NULL`. -/
abbrev Row := String → Option Value

def Row.of (columns : List (String × Option Value)) : Row := fun name => (columns.lookup name).join

abbrev Contents := String → List Row

structure Database where
  schema : Schema
  contents : Contents

def storableText (s : String) : Bool := !s.toList.contains (Char.ofNat 0)

mutual

def Jsonb.storable : Jsonb → Bool
  | .null => true
  | .bool _ => true
  | .string s => storableText s
  | .array items => items.storable
  | .object members => members.storable

def JsonbItems.storable : JsonbItems → Bool
  | .nil => true
  | .cons item rest => item.storable && rest.storable

def JsonbMembers.storable : JsonbMembers → Bool
  | .nil => true
  | .cons key value rest => storableText key && value.storable && rest.storable

end

/-- The values that PostgreSQL can hold in their types: 128 bits of a UUID, 32 of an integer,
timestamps from 4713 BC to 294276 AD, no U+0000 in a text. How large a row or an entry of
an index may get is left out. -/
def Value.inRange : Value → Bool
  | .uuid n => n < 340282366920938463463374607431768211456
  | .text s => storableText s
  | .int i => -2147483648 ≤ i && i < 2147483648
  | .timestamp t => -210866803200000000 ≤ t && t < 9224318016000000000
  | .json j => j.storable
  | .bool _ => true
  | .label _ => true

def Value.hasType (types : List (String × List String)) : ColumnType → Value → Bool
  | .uuid, .uuid _ => true
  | .string, .text _ => true
  | .boolean, .bool _ => true
  | .integer, .int _ => true
  | .timestamp, .timestamp _ => true
  | .jsonb, .json _ => true
  | .enum name, .label s => types.any fun declared => declared.1 == name && declared.2.contains s
  | _, _ => false

def admits (types : List (String × List String)) (type : ColumnType) (v : Value) : Bool :=
  v.hasType types type && v.inRange

/-- The type and the `NOT NULL` constraint of a column. -/
def Column.accepts (types : List (String × List String)) (c : Column) : Option Value → Bool
  | none => c.nullable
  | some v => admits types c.type v

/-- What `accepts` asks apart from the range. -/
def Column.fits (types : List (String × List String)) (c : Column) : Option Value → Bool
  | none => c.nullable
  | some v => v.hasType types c.type

/-- The rows of the tables hold no value that its type cannot hold. -/
def Schema.InRange (s : Schema) (contents : Contents) : Prop :=
  ∀ t ∈ s.tables, ∀ row ∈ contents t.name, ∀ c ∈ t.columns, ∀ v ∈ row c.name, v.inRange = true

def keyOf (columns : List String) (row : Row) : List (Option Value) := columns.map row

/-- Two rows with the same key have a `NULL` in it. -/
def Distinct (columns : List String) (rows : List Row) : Prop :=
  rows.Pairwise fun row row' => keyOf columns row = keyOf columns row' → none ∈ keyOf columns row

instance (columns : List String) (rows : List Row) : Decidable (Distinct columns rows) :=
  inferInstanceAs (Decidable (List.Pairwise _ rows))

def ForeignKey.Holds (fk : ForeignKey) (rows targets : List Row) : Prop :=
  ∀ row ∈ rows, row fk.column = none ∨ ∃ target ∈ targets, target fk.target = row fk.column

instance (fk : ForeignKey) (rows targets : List Row) : Decidable (fk.Holds rows targets) :=
  inferInstanceAs (Decidable (∀ row ∈ rows, _))

structure TableDef.Holds (t : TableDef) (types : List (String × List String)) (contents : Contents) : Prop where
  columns : ∀ row ∈ contents t.name, ∀ c ∈ t.columns, c.accepts types (row c.name) = true
  primaryKey : Distinct t.primaryKey (contents t.name)
  uniques : ∀ u ∈ t.uniques, Distinct u.columns (contents t.name)
  foreignKeys : ∀ fk ∈ t.foreignKeys, fk.Holds (contents t.name) (contents fk.table)

instance (t : TableDef) (types : List (String × List String)) (contents : Contents) :
    Decidable (t.Holds types contents) :=
  decidable_of_iff
    ((∀ row ∈ contents t.name, ∀ c ∈ t.columns, c.accepts types (row c.name) = true) ∧
      Distinct t.primaryKey (contents t.name) ∧
      (∀ u ∈ t.uniques, Distinct u.columns (contents t.name)) ∧
      ∀ fk ∈ t.foreignKeys, fk.Holds (contents t.name) (contents fk.table))
    ⟨fun h => ⟨h.1, h.2.1, h.2.2.1, h.2.2.2⟩, fun h => ⟨h.columns, h.primaryKey, h.uniques, h.foreignKeys⟩⟩

/-- Every constraint of the schema holds, and there are rows in its tables only. -/
structure Database.Conforms (db : Database) : Prop where
  tables : ∀ t ∈ db.schema.tables, t.Holds db.schema.types db.contents
  indexes : ∀ i ∈ db.schema.indexes, i.unique = true → Distinct i.columns (db.contents i.table)
  absent : ∀ name, name ∉ db.schema.tables.map TableDef.name → db.contents name = []

def Database.empty : Database := ⟨.empty, fun _ => []⟩

/-- A transaction commits if what it leaves in the tables keeps the constraints. -/
def Database.write (db : Database) (contents : Contents) : Option Database :=
  let written : Contents := fun name => if db.schema.tables.any (·.name == name) then contents name else []
  if (∀ t ∈ db.schema.tables, t.Holds db.schema.types written) ∧
      ∀ i ∈ db.schema.indexes, i.unique = true → Distinct i.columns (written i.table) then
    some ⟨db.schema, written⟩
  else none

/-- Types are created and dropped with `checkfirst`, tables are dropped without `CASCADE`. -/
inductive Statement
  | createType (name : String) (labels : List String)
  | dropType (name : String)
  | createTable (t : TableDef)
  | dropTable (name : String)
  | createIndex (i : Index)
  | dropIndex (name : String)
  | setNullable (table column : String) (nullable : Bool)
  | deleteWhereNull (table column : String)

/-- Tables and indexes share their names. -/
def TableDef.relations (t : TableDef) : List String :=
  t.name :: (t.name ++ "_pkey") :: t.uniques.map UniqueKey.name

def Schema.relations (s : Schema) : List String :=
  s.tables.flatMap TableDef.relations ++ s.indexes.map Index.name

def TableDef.has (t : TableDef) (column : String) : Bool := t.columns.any (·.name == column)

def Schema.declares (s : Schema) : ColumnType → Bool
  | .enum name => s.types.any (·.1 == name)
  | _ => true

/-- What a new table refers to is there, and its primary key is not nullable. -/
def TableDef.resolves (t : TableDef) (s : Schema) : Bool :=
  t.columns.all (fun c => s.declares c.type) &&
    t.primaryKey.all (fun key => t.columns.any fun c => c.name == key && !c.nullable) &&
    t.uniques.all (fun u => u.columns.all t.has) &&
    t.foreignKeys.all fun fk => t.has fk.column &&
      s.tables.any fun other => other.name == fk.table && other.primaryKey == [fk.target]

def TableDef.setNullable (t : TableDef) (column : String) (nullable : Bool) : TableDef :=
  { t with columns := t.columns.map fun c => if c.name = column then { c with nullable := nullable } else c }

/-- What a statement makes of the schema, if it is valid there. -/
def Statement.define : Statement → Schema → Option Schema
  | .createType name labels, s =>
    some (if s.types.any (·.1 == name) then s else { s with types := s.types ++ [(name, labels)] })
  | .dropType name, s =>
    if s.tables.any (fun t => t.columns.any (·.type == .enum name)) then none
    else some { s with types := s.types.filter (·.1 != name) }
  | .createTable t, s =>
    if (t.relations ++ s.relations).Nodup ∧ t.resolves s then some { s with tables := s.tables ++ [t] }
    else none
  | .dropTable name, s =>
    if s.tables.any (·.name == name) ∧
        s.tables.all (fun t => t.name == name || t.foreignKeys.all (·.table != name)) then
      some { s with
        tables := s.tables.filter (·.name != name)
        indexes := s.indexes.filter (·.table != name) }
    else none
  | .createIndex i, s =>
    if i.name ∉ s.relations ∧ s.tables.any (fun t => t.name == i.table && i.columns.all t.has) then
      some { s with indexes := s.indexes ++ [i] }
    else none
  | .dropIndex name, s =>
    if s.indexes.any (·.name == name) then some { s with indexes := s.indexes.filter (·.name != name) }
    else none
  | .setNullable table column nullable, s =>
    if s.tables.any (fun t => t.name == table && t.has column &&
        !(nullable && t.primaryKey.contains column)) then
      some { s with
        tables := s.tables.map fun t => if t.name = table then t.setNullable column nullable else t }
    else none
  | .deleteWhereNull table column, s =>
    if s.tables.any (fun t => t.name == table && t.has column) then some s else none

def Statement.effect : Statement → Contents → Contents
  | .createTable t, contents => Function.update contents t.name []
  | .dropTable name, contents => Function.update contents name []
  | .deleteWhereNull table column, contents =>
    Function.update contents table ((contents table).filter fun row => (row column).isSome)
  | _, contents => contents

/-- What a statement needs of the rows. -/
def Statement.check : Statement → Schema → Contents → Bool
  | .createIndex i, _, contents => !i.unique || decide (Distinct i.columns (contents i.table))
  | .setNullable table column false, _, contents => (contents table).all fun row => (row column).isSome
  | .deleteWhereNull table column, s, contents =>
    let kept := Statement.effect (.deleteWhereNull table column) contents
    s.tables.all fun t => t.foreignKeys.all fun fk =>
      fk.table != table || decide (fk.Holds (kept t.name) (kept table))
  | _, _, _ => true

def Statement.exec (stmt : Statement) (db : Database) : Option Database :=
  (stmt.define db.schema).bind fun schema =>
    if stmt.check db.schema db.contents then some ⟨schema, stmt.effect db.contents⟩ else none

def script : List Statement → Database → Option Database
  | [], db => some db
  | stmt :: rest, db => (stmt.exec db).bind (script rest)

/-- The schema part of a script. -/
def defines : List Statement → Schema → Option Schema
  | [], s => some s
  | stmt :: rest, s => (stmt.define s).bind (defines rest)

section Constraints

variable {types types' : List (String × List String)} {contents contents' : Contents} {t : TableDef}
  {rows kept : List Row} {columns : List String}

theorem Distinct.sublist (h : Distinct columns rows) (sub : kept.Sublist rows) : Distinct columns kept :=
  List.Pairwise.sublist sub h

theorem distinct_nil : Distinct columns [] := List.Pairwise.nil

theorem ForeignKey.Holds.subset {fk : ForeignKey} {targets : List Row} (h : fk.Holds rows targets)
    (sub : kept ⊆ rows) : fk.Holds kept targets := fun row mem => h row (sub mem)

theorem Column.accepts_mono {c : Column} (more : ∀ v, admits types c.type v = true → admits types' c.type v = true)
    {value : Option Value} (h : c.accepts types value = true) : c.accepts types' value = true := by
  cases value with
  | none => exact h
  | some v => exact more v h

theorem accepts_iff {c : Column} {value : Option Value} :
    c.accepts types value = true ↔ c.fits types value = true ∧ ∀ v ∈ value, v.inRange = true := by
  cases value with
  | none =>
    refine ⟨fun nullable => ⟨nullable, fun v mem => ?_⟩, And.left⟩
    cases mem
  | some v =>
    rw [Column.accepts, Column.fits, admits, Bool.and_eq_true]
    simp only [Option.mem_some_iff, forall_eq']

theorem admits_append {type : ColumnType} {v : Value} (h : admits types type v = true)
    (more : List (String × List String)) : admits (types ++ more) type v = true := by
  unfold admits at h ⊢
  rw [Bool.and_eq_true] at h ⊢
  refine ⟨?_, h.2⟩
  have typed := h.1
  unfold Value.hasType at typed ⊢
  split at typed
  case h_7 =>
    rw [List.any_append, typed]
    rfl
  case h_8 => cases typed
  all_goals rfl

theorem admits_filter {type : ColumnType} {name : String} (other : type ≠ .enum name) {v : Value}
    (h : admits types type v = true) : admits (types.filter (·.1 != name)) type v = true := by
  unfold admits at h ⊢
  rw [Bool.and_eq_true] at h ⊢
  refine ⟨?_, h.2⟩
  have typed := h.1
  unfold Value.hasType at typed ⊢
  split at typed
  case h_7 declared s =>
    obtain ⟨entry, mem, matching⟩ := List.any_eq_true.mp typed
    refine List.any_eq_true.mpr ⟨entry, List.mem_filter.mpr ⟨mem, ?_⟩, matching⟩
    simp only [Bool.and_eq_true, beq_iff_eq] at matching
    rw [bne_iff_ne, matching.1]
    rintro rfl
    exact other rfl
  case h_8 => cases typed
  all_goals rfl

theorem Schema.InRange.accepted {s : Schema} (ranged : s.InRange contents) (listed : t ∈ s.tables)
    (fits : ∀ row ∈ contents t.name, ∀ c ∈ t.columns, c.fits s.types (row c.name) = true) :
    ∀ row ∈ contents t.name, ∀ c ∈ t.columns, c.accepts s.types (row c.name) = true :=
  fun row mem c there => accepts_iff.mpr ⟨fits row mem c there, ranged t listed row mem c there⟩

theorem Database.Conforms.inRange {db : Database} (conforms : db.Conforms) : db.schema.InRange db.contents :=
  fun t listed row mem c there => (accepts_iff.mp ((conforms.tables t listed).columns row mem c there)).2

theorem TableDef.Holds.of_types (h : t.Holds types contents)
    (more : ∀ c ∈ t.columns, ∀ v, admits types c.type v = true → admits types' c.type v = true) :
    t.Holds types' contents :=
  ⟨fun row mem c listed => Column.accepts_mono (more c listed) (h.columns row mem c listed), h.primaryKey,
    h.uniques, h.foreignKeys⟩

theorem TableDef.Holds.of_empty (h : contents t.name = []) : t.Holds types contents := by
  refine ⟨?_, ?_, ?_, ?_⟩
  · intro row mem
    rw [h] at mem
    cases mem
  · rw [h]
    exact distinct_nil
  · intro u _
    rw [h]
    exact distinct_nil
  · intro fk _ row mem
    rw [h] at mem
    cases mem

/-- Fewer rows in the table itself, and the rows it refers to are still there. -/
theorem TableDef.Holds.of_sublist (h : t.Holds types contents)
    (sub : (contents' t.name).Sublist (contents t.name))
    (refers : ∀ fk ∈ t.foreignKeys, fk.Holds (contents' t.name) (contents' fk.table)) :
    t.Holds types contents' :=
  ⟨fun row mem => h.columns row (sub.subset mem), h.primaryKey.sublist sub,
    fun u listed => (h.uniques u listed).sublist sub, refers⟩

theorem TableDef.Holds.setNullable (h : t.Holds types contents) {column : String} {nullable : Bool}
    (check : nullable = false → ∀ row ∈ contents t.name, (row column).isSome = true) :
    (t.setNullable column nullable).Holds types contents := by
  refine ⟨?_, h.primaryKey, h.uniques, h.foreignKeys⟩
  intro row mem c' listed
  obtain ⟨c, was, rfl⟩ := List.mem_map.mp listed
  have accepted := h.columns row mem c was
  split
  next own =>
    cases value : row c.name with
    | some v =>
      rw [value] at accepted
      exact accepted
    | none =>
      cases nullable with
      | true => rfl
      | false =>
        have present := check rfl row mem
        rw [← own, value] at present
        cases present
  next => exact accepted

theorem forall_setNullable {p : String → Prop} {column : String} {nullable : Bool} :
    (∀ c ∈ (t.setNullable column nullable).columns, p c.name) ↔ ∀ c ∈ t.columns, p c.name := by
  simp only [TableDef.setNullable, List.forall_mem_map]
  refine forall₂_congr fun c _ => ?_
  split <;> rfl

/-- The table with no `NULL` in any column. -/
def TableDef.required (t : TableDef) : TableDef :=
  { t with columns := t.columns.map fun c => { c with nullable := false } }

theorem TableDef.required_holds_iff (h : t.Holds types contents) :
    t.required.Holds types contents ↔
      ∀ row ∈ contents t.name, ∀ c ∈ t.columns, (row c.name).isSome = true := by
  constructor
  · intro held row mem c listed
    have accepted := held.columns row mem { c with nullable := false } (List.mem_map_of_mem listed)
    cases value : row c.name with
    | some _ => rfl
    | none =>
      dsimp only at accepted
      rw [value] at accepted
      cases accepted
  · intro filled
    refine ⟨?_, h.primaryKey, h.uniques, h.foreignKeys⟩
    intro row mem c' listed
    obtain ⟨c, was, rfl⟩ := List.mem_map.mp listed
    have accepted := h.columns row mem c was
    obtain ⟨v, value⟩ := Option.isSome_iff_exists.mp (filled row mem c was)
    rw [value] at accepted ⊢
    exact accepted

end Constraints

section Statements

variable {stmt : Statement} {db db' : Database} {stmts : List Statement} {schema : Schema}

theorem exec_cases (h : stmt.exec db = some db') :
    ∃ schema, stmt.define db.schema = some schema ∧ stmt.check db.schema db.contents = true ∧
      db' = ⟨schema, stmt.effect db.contents⟩ := by
  obtain ⟨schema, defined, h⟩ := Option.bind_eq_some_iff.mp h
  obtain ⟨checked, h⟩ := Option.ite_none_right_eq_some.mp h
  exact ⟨schema, defined, checked, (Option.some.inj h).symm⟩

theorem exec_of_check (defined : stmt.define db.schema = some schema)
    (checked : stmt.check db.schema db.contents = true) :
    stmt.exec db = some ⟨schema, stmt.effect db.contents⟩ := by
  rw [Statement.exec, defined, Option.bind_some, if_pos checked]

theorem name_mem_relations {t : TableDef} {s : Schema} (mem : t ∈ s.tables) : t.name ∈ s.relations :=
  List.mem_append_left _ (List.mem_flatMap.mpr ⟨t, mem, List.mem_cons_self⟩)

theorem createTable_contents {t : TableDef} (conforms : db.Conforms)
    (h : (Statement.createTable t).define db.schema = some schema) :
    (Statement.createTable t).effect db.contents = db.contents ∧ db.contents t.name = [] := by
  obtain ⟨⟨distinct, -⟩, -⟩ := Option.ite_none_right_eq_some.mp h
  have unused : t.name ∉ db.schema.tables.map TableDef.name := by
    intro mem
    obtain ⟨other, listed, same⟩ := List.mem_map.mp mem
    exact List.disjoint_of_nodup_append distinct List.mem_cons_self (same ▸ name_mem_relations listed)
  have none_there := conforms.absent t.name unused
  exact ⟨Function.update_eq_self_iff.mpr none_there.symm, none_there⟩

theorem Database.Conforms.createTable {t : TableDef} (conforms : db.Conforms)
    (h : (Statement.createTable t).exec db = some db') : db'.Conforms := by
  obtain ⟨schema, defined, -, rfl⟩ := exec_cases h
  obtain ⟨same, none_there⟩ := createTable_contents conforms defined
  rw [same]
  obtain ⟨-, added⟩ := Option.ite_none_right_eq_some.mp defined
  cases Option.some.inj added
  refine ⟨?_, conforms.indexes, ?_⟩
  · intro other mem
    rcases List.mem_append.mp mem with old | new
    · exact conforms.tables other old
    · cases List.mem_singleton.mp new
      exact .of_empty none_there
  · intro name outside
    apply conforms.absent
    intro mem
    rw [List.map_append] at outside
    exact outside (List.mem_append_left _ mem)

theorem Database.Conforms.dropTable {name : String} (conforms : db.Conforms)
    (h : (Statement.dropTable name).exec db = some db') : db'.Conforms := by
  obtain ⟨schema, defined, -, rfl⟩ := exec_cases h
  obtain ⟨⟨-, unreferenced⟩, dropped⟩ := Option.ite_none_right_eq_some.mp defined
  cases Option.some.inj dropped
  have others : ∀ other, other ≠ name →
      (Statement.dropTable name).effect db.contents other = db.contents other :=
    fun other apart => Function.update_of_ne apart _ _
  refine ⟨?_, ?_, ?_⟩
  · intro t mem
    obtain ⟨old, apart⟩ := List.mem_filter.mp mem
    have unlike : t.name ≠ name := bne_iff_ne.mp apart
    have held := conforms.tables t old
    have refers := List.all_eq_true.mp unreferenced t old
    rw [beq_eq_false_iff_ne.mpr unlike, Bool.false_or] at refers
    have kept := others t.name unlike
    refine held.of_sublist (kept ▸ List.Sublist.refl _) fun fk listed => ?_
    have target := others fk.table (bne_iff_ne.mp (List.all_eq_true.mp refers fk listed))
    dsimp only
    rw [kept, target]
    exact held.foreignKeys fk listed
  · intro i mem unique
    obtain ⟨old, apart⟩ := List.mem_filter.mp mem
    dsimp only
    rw [others _ (bne_iff_ne.mp apart)]
    exact conforms.indexes i old unique
  · intro other outside
    dsimp only
    by_cases own : other = name
    · rw [own]
      exact Function.update_self ..
    · rw [others _ own]
      apply conforms.absent
      intro mem
      obtain ⟨t, old, rfl⟩ := List.mem_map.mp mem
      exact outside (List.mem_map_of_mem (List.mem_filter.mpr ⟨old, bne_iff_ne.mpr own⟩))

theorem Database.Conforms.setNullable {table column : String} {nullable : Bool} (conforms : db.Conforms)
    (h : (Statement.setNullable table column nullable).exec db = some db') : db'.Conforms := by
  obtain ⟨schema, defined, checked, rfl⟩ := exec_cases h
  obtain ⟨-, changed⟩ := Option.ite_none_right_eq_some.mp defined
  cases Option.some.inj changed
  have present : nullable = false → ∀ row ∈ db.contents table, (row column).isSome = true := by
    rintro rfl
    exact List.all_eq_true.mp checked
  refine ⟨?_, conforms.indexes, ?_⟩
  · intro t mem
    obtain ⟨was, old, rfl⟩ := List.mem_map.mp mem
    split
    next own =>
      subst own
      exact (conforms.tables was old).setNullable present
    next => exact conforms.tables was old
  · intro name outside
    apply conforms.absent
    intro mem
    obtain ⟨t, old, rfl⟩ := List.mem_map.mp mem
    refine outside (List.mem_map.mpr ⟨_, List.mem_map_of_mem old, ?_⟩)
    split
    · rfl
    · rfl

theorem Database.Conforms.deleteWhereNull {table column : String} (conforms : db.Conforms)
    (h : (Statement.deleteWhereNull table column).exec db = some db') : db'.Conforms := by
  obtain ⟨schema, defined, checked, rfl⟩ := exec_cases h
  obtain ⟨-, same⟩ := Option.ite_none_right_eq_some.mp defined
  cases Option.some.inj same
  have others : ∀ other, other ≠ table →
      (Statement.deleteWhereNull table column).effect db.contents other = db.contents other :=
    fun other apart => Function.update_of_ne apart _ _
  have fewer : ∀ other, ((Statement.deleteWhereNull table column).effect db.contents other).Sublist
      (db.contents other) := by
    intro other
    by_cases own : other = table
    · rw [own, Statement.effect, Function.update_self]
      exact List.filter_sublist
    · rw [others other own]
  refine ⟨?_, ?_, ?_⟩
  · intro t mem
    have held := conforms.tables t mem
    refine held.of_sublist (fewer _) fun fk listed => ?_
    have check := List.all_eq_true.mp (List.all_eq_true.mp checked t mem) fk listed
    by_cases own : fk.table = table
    · rw [bne_eq_false_iff_eq.mpr own, Bool.false_or, decide_eq_true_eq] at check
      rw [own]
      exact check
    · dsimp only
      rw [others _ own]
      exact (held.foreignKeys fk listed).subset (fewer _).subset
  · intro i mem unique
    exact (conforms.indexes i mem unique).sublist (fewer _)
  · intro name outside
    have none_there := conforms.absent name outside
    exact List.sublist_nil.mp (none_there ▸ fewer name)

/-- A statement that is executed keeps every constraint. -/
theorem Database.Conforms.exec (conforms : db.Conforms) (h : stmt.exec db = some db') : db'.Conforms := by
  cases stmt with
  | createTable t => exact conforms.createTable h
  | dropTable name => exact conforms.dropTable h
  | setNullable table column nullable => exact conforms.setNullable h
  | deleteWhereNull table column => exact conforms.deleteWhereNull h
  | createType name labels =>
    obtain ⟨schema, defined, -, rfl⟩ := exec_cases h
    cases Option.some.inj defined
    split
    · exact conforms
    · refine ⟨fun t mem => ?_, conforms.indexes, conforms.absent⟩
      exact (conforms.tables t mem).of_types fun c _ v admitted => admits_append admitted _
  | dropType name =>
    obtain ⟨schema, defined, -, rfl⟩ := exec_cases h
    obtain ⟨unused, dropped⟩ := Option.ite_none_left_eq_some.mp defined
    cases Option.some.inj dropped
    refine ⟨fun t mem => ?_, conforms.indexes, conforms.absent⟩
    refine (conforms.tables t mem).of_types fun c listed v admitted => admits_filter ?_ admitted
    intro used
    refine unused (List.any_eq_true.mpr ⟨t, mem, List.any_eq_true.mpr ⟨c, listed, ?_⟩⟩)
    rw [used]
    exact beq_self_eq_true _
  | createIndex i =>
    obtain ⟨schema, defined, checked, rfl⟩ := exec_cases h
    obtain ⟨-, added⟩ := Option.ite_none_right_eq_some.mp defined
    cases Option.some.inj added
    refine ⟨conforms.tables, ?_, conforms.absent⟩
    intro other mem unique
    rcases List.mem_append.mp mem with old | new
    · exact conforms.indexes other old unique
    · cases List.mem_singleton.mp new
      rw [Statement.check, unique, Bool.not_true, Bool.false_or] at checked
      exact of_decide_eq_true checked
  | dropIndex name =>
    obtain ⟨schema, defined, -, rfl⟩ := exec_cases h
    obtain ⟨-, dropped⟩ := Option.ite_none_right_eq_some.mp defined
    cases Option.some.inj dropped
    refine ⟨conforms.tables, ?_, conforms.absent⟩
    intro other mem
    exact conforms.indexes other (List.mem_filter.mp mem).1

theorem conforms_empty : Database.empty.Conforms := by
  refine ⟨?_, ?_, ?_⟩
  · intro t mem
    cases mem
  · intro i mem
    cases mem
  · intro name _
    rfl

theorem write_cases {contents : Contents} (h : db.write contents = some db') :
    db'.schema = db.schema ∧ db'.Conforms := by
  obtain ⟨⟨tables, indexes⟩, h⟩ := Option.ite_none_right_eq_some.mp h
  cases Option.some.inj h
  refine ⟨rfl, tables, indexes, ?_⟩
  intro name outside
  refine if_neg fun inside => outside ?_
  obtain ⟨t, mem, same⟩ := List.any_eq_true.mp inside
  exact List.mem_map.mpr ⟨t, mem, eq_of_beq same⟩

theorem write_inRange {contents : Contents} (h : db.write contents = some db') :
    db.schema.InRange contents := by
  have ranged := (write_cases h).2.inRange
  obtain ⟨-, h⟩ := Option.ite_none_right_eq_some.mp h
  cases Option.some.inj h
  intro t listed row mem
  refine ranged t listed row ?_
  dsimp only
  rw [if_pos (List.any_eq_true.mpr ⟨t, listed, beq_self_eq_true t.name⟩)]
  exact mem

/-- Contents that keep the constraints can be written whatever was there before. -/
theorem write_of_conforms {contents : Contents} (conforms : (⟨db.schema, contents⟩ : Database).Conforms) :
    db.write contents = some ⟨db.schema, contents⟩ := by
  have same : (fun name => if db.schema.tables.any (·.name == name) then contents name else []) = contents := by
    funext name
    split
    next => rfl
    next outside =>
      refine (conforms.absent name fun mem => outside ?_).symm
      obtain ⟨t, listed, rfl⟩ := List.mem_map.mp mem
      exact List.any_eq_true.mpr ⟨t, listed, beq_self_eq_true _⟩
  unfold Database.write
  rw [same]
  exact if_pos ⟨conforms.tables, conforms.indexes⟩

theorem Database.Conforms.script (conforms : db.Conforms) (h : script stmts db = some db') :
    db'.Conforms := by
  induction stmts generalizing db with
  | nil =>
    cases Option.some.inj h
    exact conforms
  | cons stmt rest ih =>
    obtain ⟨mid, first, later⟩ := Option.bind_eq_some_iff.mp h
    exact ih (conforms.exec first) later

/-- A statement that needs nothing of the rows. -/
def Statement.unchecked : Statement → Bool
  | .createIndex i => !i.unique
  | .setNullable _ _ nullable => nullable
  | .deleteWhereNull _ _ => false
  | _ => true

theorem check_of_unchecked (h : stmt.unchecked = true) (s : Schema) (contents : Contents) :
    stmt.check s contents = true := by
  cases stmt with
  | createIndex i =>
    rw [Statement.check, show (!i.unique) = true from h]
    rfl
  | setNullable table column nullable =>
    cases nullable with
    | true => rfl
    | false => cases h
  | deleteWhereNull => cases h
  | _ => rfl

/-- Such statements fail for their definitions only. -/
theorem script_of_unchecked (unchecked : ∀ stmt ∈ stmts, stmt.unchecked = true)
    (defined : defines stmts db.schema = some schema) :
    ∃ contents, RelationalSchema.script stmts db = some ⟨schema, contents⟩ := by
  induction stmts generalizing db with
  | nil =>
    cases Option.some.inj defined
    exact ⟨db.contents, rfl⟩
  | cons stmt rest ih =>
    obtain ⟨mid, first, later⟩ := Option.bind_eq_some_iff.mp defined
    have run := exec_of_check first
      (check_of_unchecked (unchecked stmt List.mem_cons_self) db.schema db.contents)
    obtain ⟨contents, done⟩ := @ih ⟨mid, stmt.effect db.contents⟩
      (fun other mem => unchecked other (List.mem_cons_of_mem _ mem)) later
    exact ⟨contents, Option.bind_eq_some_iff.mpr ⟨_, run, done⟩⟩

theorem exec_nowhere (defined : stmt.define db.schema = some schema) (none_there : db.contents = fun _ => []) :
    stmt.exec db = some ⟨schema, fun _ => []⟩ := by
  have kept : stmt.effect (fun _ => []) = fun _ => [] := by
    cases stmt with
    | createTable | dropTable | deleteWhereNull => exact Function.update_eq_self _ _
    | _ => rfl
  have checked : stmt.check db.schema (fun _ => []) = true := by
    cases stmt with
    | createIndex i => simp [Statement.check, distinct_nil]
    | setNullable table column nullable => cases nullable <;> rfl
    | deleteWhereNull table column =>
      simp only [Statement.check, kept, List.all_eq_true]
      intro t _ fk _
      have held : fk.Holds [] [] := by
        intro row mem
        cases mem
      rw [decide_eq_true held, Bool.or_true]
    | _ => rfl
  rw [exec_of_check defined (none_there ▸ checked), none_there, kept]

/-- While there are no rows a script fails for its definitions only. -/
theorem script_nowhere (none_there : db.contents = fun _ => []) :
    RelationalSchema.script stmts db = (defines stmts db.schema).map fun schema => ⟨schema, fun _ => []⟩ := by
  induction stmts generalizing db with
  | nil =>
    cases db
    cases none_there
    rfl
  | cons stmt rest ih =>
    rw [RelationalSchema.script, defines]
    cases defined : stmt.define db.schema with
    | none =>
      rw [Statement.exec, defined]
      rfl
    | some schema =>
      rw [exec_nowhere defined none_there, Option.bind_some, Option.bind_some]
      exact ih rfl

end Statements

end RelationalSchema
