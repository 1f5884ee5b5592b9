import SqlBackend.SqlType
import SqlBackend.Statement.Basic

/-! # Tables

The declaration of a table: its columns, keys, indexes and checks. Conditions,
defaults and column options are texts that go into statements as they are.
-/

namespace SqlBackend

structure Column where
  name : String
  type : SqlType
  size : Size := {}
  /-- A spelling of the type that is used instead of the backend's. -/
  sqlType : Option String := none
  nullable : Bool := true
  unique : Bool := false
  uniqueKeyName : Option String := none
  /-- The backend generates the values. -/
  identity : Bool := false
  default : Option String := none
  check : Option String := none
  options : Option String := none
deriving DecidableEq, Repr

/-- The names of the columns that a column is stored in: itself alone. -/
def Column.selectables (c : Column) : List String := [c.name]

/-- Some columns under a name: an index or a unique key. -/
structure NamedColumns where
  name : String
  columns : List String
deriving DecidableEq, Repr

/-- A reference to another table. Without referenced columns the reference is to
its primary key. -/
structure ForeignKey where
  name : String
  columns : List String
  referencedTable : String
  referencedColumns : List String := []
deriving DecidableEq, Repr

structure Table where
  name : String
  schema : Option String := none
  columns : List Column := []
  /-- The columns of the primary key, if one is declared. -/
  primaryKey : Option (List String) := none
  indexes : List NamedColumns := []
  uniqueKeys : List NamedColumns := []
  foreignKeys : List ForeignKey := []
  checks : List String := []
deriving DecidableEq, Repr

namespace Table

def qualifiedName (t : Table) : String := SqlBackend.qualifiedName t.schema t.name

def addColumn (t : Table) (c : Column) : Table := { t with columns := t.columns ++ [c] }

def addIndex (t : Table) (index : NamedColumns) : Table :=
  { t with indexes := t.indexes ++ [index] }

def addUniqueKey (t : Table) (key : NamedColumns) : Table :=
  { t with uniqueKeys := t.uniqueKeys ++ [key] }

def addForeignKey (t : Table) (key : ForeignKey) : Table :=
  { t with foreignKeys := t.foreignKeys ++ [key] }

def addCheck (t : Table) (check : String) : Table := { t with checks := t.checks ++ [check] }

/-- The columns of the primary key. -/
def keyColumns (t : Table) : List String := t.primaryKey.getD []

/-- Whether there is a primary key. One without columns is none. -/
def hasPrimaryKey (t : Table) : Bool := !t.keyColumns.isEmpty

def findColumn? (t : Table) (name : String) : Option Column :=
  t.columns.find? fun c => c.name = name

/-- The name of the constraint or index that makes a column unique. -/
def uniqueKeyName (t : Table) (c : Column) : String :=
  c.uniqueKeyName.getD ("uk_" ++ t.name ++ "_" ++ c.name)

/-- The names of everything that may be stored as an index: the indexes, the
unique keys and the keys of unique columns. -/
def indexNames (t : Table) : List String :=
  t.indexes.map (·.name) ++ t.uniqueKeys.map (·.name) ++
    (t.columns.filter (·.unique)).map t.uniqueKeyName

end Table

end SqlBackend
