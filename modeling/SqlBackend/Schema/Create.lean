import SqlBackend.Dialect.Basic
import SqlBackend.Schema.Table

/-! # Creating tables

The statements that create a table: the table itself, then its unique keys,
then its indexes. A unique column is declared in its definition where the
backend allows it, and by a key of its own otherwise.
-/

namespace SqlBackend

/-- Some column names, separated by commas. -/
def columnList (names : List String) : String := ", ".intercalate names

namespace Dialect

/-- Whether a unique column is declared so in its own definition. -/
def inlineUnique (d : Dialect) : Bool :=
  d.uniqueKeys = .constraint && d.supports .inlineUnique

end Dialect

namespace Table

/-- The start of a statement that changes the table. -/
def alter (t : Table) (d : Dialect) : String :=
  (if d.supports .ifExistsAfterAlterTable then "alter table if exists " else "alter table ") ++
    t.qualifiedName

/-- The unique keys to be created by statements of their own: those of unique
columns that are declared nowhere else, then the declared ones. -/
def separateUniqueKeys (t : Table) (d : Dialect) : List NamedColumns :=
  let columns := t.columns.filter fun c =>
    c.unique && !t.keyColumns.contains c.name && !d.inlineUnique
  columns.map (fun c => ⟨t.uniqueKeyName c, [c.name]⟩) ++ t.uniqueKeys

/-- The statement that creates a unique key. -/
def createUniqueKey (t : Table) (d : Dialect) (key : NamedColumns) : String :=
  match d.uniqueKeys with
  | .constraint =>
      t.alter d ++ " add constraint " ++ key.name ++ " unique (" ++ columnList key.columns ++ ")"
  | .uniqueIndex =>
      "create unique index " ++ key.name ++ " on " ++ t.qualifiedName ++ " (" ++
        columnList key.columns ++ ")"

def createIndex (t : Table) (index : NamedColumns) : String :=
  "create index " ++ index.name ++ " on " ++ t.qualifiedName ++ " (" ++
    columnList index.columns ++ ")"

end Table

/-- The definition of a column: its type, default, identity and constraints, and
its options at the end. A column of the primary key is neither nullable nor
declared unique by itself. -/
def Column.definition (c : Column) (inKey : Bool) (d : Dialect) : String :=
  c.name ++ " " ++ c.sqlType.getD (d.types.spelling c.type c.size) ++
    (c.default.elim "" (" default " ++ ·)) ++
    (if c.identity then " " ++ d.identityClause else "") ++
    (if inKey || !c.nullable then " not null" else "") ++
    (if c.unique && !inKey && d.inlineUnique then " unique" else "") ++
    (c.check.elim "" fun check => " check (" ++ check ++ ")") ++
    (c.options.elim "" (" " ++ ·))

namespace Table

/-- The statement that creates the table without what follows it. -/
def createTable (t : Table) (d : Dialect) : String :=
  let columns := t.columns.map fun c => c.definition (t.keyColumns.contains c.name) d
  let key := if t.hasPrimaryKey then ["primary key (" ++ columnList t.keyColumns ++ ")"] else []
  let checks := t.checks.map fun check => "check (" ++ check ++ ")"
  "create table " ++ t.qualifiedName ++ " (" ++ ", ".intercalate (columns ++ key ++ checks) ++ ")"

/-- What keeps a table from being created: it has no columns, or its key names
one that it does not have. -/
def fault? (t : Table) : Option MappingFault :=
  if t.columns.isEmpty then some (.noColumns t.name)
  else (t.keyColumns.find? fun name => (t.findColumn? name).isNone).map fun name =>
    .unknownKeyColumn name t.name

/-- The statements that create the table as it is declared. -/
def createStatements (t : Table) (d : Dialect) : Except Error (List String) :=
  match t.fault? with
  | some fault => .error (.mapping fault)
  | none =>
      .ok (t.createTable d :: (t.separateUniqueKeys d).map (t.createUniqueKey d) ++
        t.indexes.map t.createIndex)

/-- The statements that drop the table alone. -/
def dropStatements (t : Table) (d : Dialect) : List String :=
  d.beforeDrop.toList ++ ["drop table if exists " ++ t.qualifiedName ++ d.cascade]

end Table

end SqlBackend
