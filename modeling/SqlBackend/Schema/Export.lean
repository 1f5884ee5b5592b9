import SqlBackend.Schema.Create

/-! # Exporting tables

A table is created and dropped in the style of its backend. Spanner needs a
primary key, so a table without one gets a hidden column as its key, and it
drops no table that still has indexes, so those are dropped first.
-/

namespace SqlBackend

/-- The hidden column that a table without a primary key is given. -/
def Column.rowId : Column where
  name := "rowid"
  type := .bigInt
  sqlType := some "bigint"
  nullable := false
  identity := true
  options := some "hidden"

namespace Table

/-- The table with a primary key: its own, or else the hidden column. -/
def withPrimaryKey (t : Table) : Table :=
  if t.hasPrimaryKey then t
  else { t with columns := t.columns ++ [.rowId], primaryKey := some [Column.rowId.name] }

def dropIndex (name : String) : String := "drop index if exists " ++ name

end Table

namespace ExportStyle

def create (style : ExportStyle) (t : Table) (d : Dialect) : Except Error (List String) :=
  match style with
  | standard => t.createStatements d
  | spanner => t.withPrimaryKey.createStatements d

def drop (style : ExportStyle) (t : Table) (d : Dialect) : List String :=
  match style with
  | standard => t.dropStatements d
  | spanner => t.indexNames.map Table.dropIndex ++ t.dropStatements d

end ExportStyle

end SqlBackend
