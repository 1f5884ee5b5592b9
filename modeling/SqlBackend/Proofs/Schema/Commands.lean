import SqlBackend.Schema.Export

/-! # Statements on tables by their parts

The statements that create and drop a table are texts. Here they are taken apart:
which columns a table is given and with which clauses, which keys and indexes are
created, and which are dropped. The parts written out are the statements again.
-/

namespace SqlBackend

/-- A column in the statement that creates its table. -/
structure ColumnDefinition where
  name : String
  type : String
  default : Option String
  identity : Option String
  notNull : Bool
  unique : Bool
  check : Option String
  options : Option String
deriving DecidableEq, Repr

def ColumnDefinition.text (c : ColumnDefinition) : String :=
  c.name ++ " " ++ c.type ++ (c.default.elim "" (" default " ++ ·)) ++
    (c.identity.elim "" (" " ++ ·)) ++ (if c.notNull then " not null" else "") ++
    (if c.unique then " unique" else "") ++
    (c.check.elim "" fun check => " check (" ++ check ++ ")") ++ (c.options.elim "" (" " ++ ·))

/-- What a table is made of in the statement that creates it. -/
inductive TableElement where
  | column (c : ColumnDefinition)
  | primaryKey (columns : List String)
  | check (condition : String)
deriving DecidableEq, Repr

def TableElement.text : TableElement → String
  | column c => c.text
  | primaryKey columns => "primary key (" ++ columnList columns ++ ")"
  | check condition => "check (" ++ condition ++ ")"

/-- A statement on a table or on one of its indexes. -/
inductive TableCommand where
  | createTable (table : String) (elements : List TableElement)
  /-- Adds a unique constraint, perhaps on the condition that the table exists. -/
  | addUniqueKey (table : String) (ifExists : Bool) (key : NamedColumns)
  | createIndex (unique : Bool) (table : String) (index : NamedColumns)
  | dropIndex (name : String)
  | dropTable (table cascade : String)
deriving DecidableEq, Repr

def TableCommand.text : TableCommand → String
  | createTable table elements =>
      "create table " ++ table ++ " (" ++ ", ".intercalate (elements.map TableElement.text) ++ ")"
  | addUniqueKey table ifExists key =>
      (if ifExists then "alter table if exists " else "alter table ") ++ table ++
        " add constraint " ++ key.name ++ " unique (" ++ columnList key.columns ++ ")"
  | createIndex unique table index =>
      (if unique then "create unique index " else "create index ") ++ index.name ++ " on " ++
        table ++ " (" ++ columnList index.columns ++ ")"
  | dropIndex name => "drop index if exists " ++ name
  | dropTable table cascade => "drop table if exists " ++ table ++ cascade

/-- How a column is defined by the rules of a dialect. -/
def Column.define (c : Column) (inKey : Bool) (d : Dialect) : ColumnDefinition where
  name := c.name
  type := c.sqlType.getD (d.types.spelling c.type c.size)
  default := c.default
  identity := if c.identity then some d.identityClause else none
  notNull := inKey || !c.nullable
  unique := c.unique && !inKey && d.inlineUnique
  check := c.check
  options := c.options

theorem Column.text_define (c : Column) (inKey : Bool) (d : Dialect) :
    (c.define inKey d).text = c.definition inKey d := by
  unfold ColumnDefinition.text define definition
  cases c.identity with
  | false => rfl
  | true => rfl

namespace Table

variable (t : Table) (d : Dialect)

def elements : List TableElement :=
  t.columns.map (fun c => .column (c.define (t.keyColumns.contains c.name) d)) ++
    (if t.hasPrimaryKey then [.primaryKey t.keyColumns] else []) ++ t.checks.map .check

/-- The statement for a unique key, which is a constraint or an index. -/
def uniqueKeyCommand (key : NamedColumns) : TableCommand :=
  match d.uniqueKeys with
  | .constraint => .addUniqueKey t.qualifiedName (d.supports .ifExistsAfterAlterTable) key
  | .uniqueIndex => .createIndex true t.qualifiedName key

def createCommands : List TableCommand :=
  .createTable t.qualifiedName (t.elements d) ::
    (t.separateUniqueKeys d).map (t.uniqueKeyCommand d) ++
    t.indexes.map (.createIndex false t.qualifiedName)

theorem map_text_elements :
    (t.elements d).map TableElement.text =
      t.columns.map (fun c => c.definition (t.keyColumns.contains c.name) d) ++
        (if t.hasPrimaryKey then ["primary key (" ++ columnList t.keyColumns ++ ")"] else []) ++
        t.checks.map fun check => "check (" ++ check ++ ")" := by
  have hcolumns : (t.columns.map fun c =>
        TableElement.column (c.define (t.keyColumns.contains c.name) d)).map TableElement.text =
      t.columns.map fun c => c.definition (t.keyColumns.contains c.name) d := by
    rw [List.map_map]
    apply List.map_congr_left
    intro c _
    exact c.text_define (t.keyColumns.contains c.name) d
  have hkey : (if t.hasPrimaryKey then [TableElement.primaryKey t.keyColumns] else []).map
        TableElement.text =
      if t.hasPrimaryKey then ["primary key (" ++ columnList t.keyColumns ++ ")"] else [] := by
    cases t.hasPrimaryKey with
    | false => rfl
    | true => rfl
  rw [elements, List.map_append, List.map_append, hcolumns, hkey, List.map_map]
  rfl

theorem text_createTable :
    (TableCommand.createTable t.qualifiedName (t.elements d)).text = t.createTable d := by
  change "create table " ++ t.qualifiedName ++ " (" ++
    ", ".intercalate ((t.elements d).map TableElement.text) ++ ")" = _
  rw [map_text_elements]
  rfl

theorem text_uniqueKeyCommand (key : NamedColumns) :
    (t.uniqueKeyCommand d key).text = t.createUniqueKey d key := by
  unfold uniqueKeyCommand createUniqueKey
  cases d.uniqueKeys with
  | constraint => rfl
  | uniqueIndex => rfl

/-- A table that is accepted is created by its commands. -/
theorem createStatements_eq :
    t.createStatements d = match t.fault? with
      | some fault => .error (.mapping fault)
      | none => .ok ((t.createCommands d).map TableCommand.text) := by
  have hkeys : (t.separateUniqueKeys d).map (t.createUniqueKey d) =
      ((t.separateUniqueKeys d).map (t.uniqueKeyCommand d)).map TableCommand.text := by
    rw [List.map_map]
    apply List.map_congr_left
    intro key _
    exact (t.text_uniqueKeyCommand d key).symm
  have hindexes : t.indexes.map t.createIndex =
      (t.indexes.map (TableCommand.createIndex false t.qualifiedName)).map TableCommand.text := by
    rw [List.map_map]
    rfl
  have hcommands : (t.createCommands d).map TableCommand.text =
      t.createTable d :: (t.separateUniqueKeys d).map (t.createUniqueKey d) ++
        t.indexes.map t.createIndex := by
    rw [createCommands, List.map_append, List.map_cons, text_createTable, ← hkeys, ← hindexes]
  unfold createStatements
  cases t.fault? with
  | none => exact congrArg Except.ok hcommands.symm
  | some fault => rfl

theorem statements_of_createStatements {statements : List String}
    (h : t.createStatements d = .ok statements) :
    statements = (t.createCommands d).map TableCommand.text := by
  rw [createStatements_eq] at h
  split at h
  next => cases h
  next =>
    cases h
    rfl

end Table

end SqlBackend
