import SqlBackend.Schema.Create

/-! # Foreign keys

Foreign keys are added to a table by statements of their own, after all tables
have been created, and dropped before any of them is.
-/

namespace SqlBackend

/-- What is added to a table for a foreign key. -/
def Dialect.addForeignKey (d : Dialect) (key : ForeignKey) : String :=
  let target := columnList key.columns ++ ") references " ++ key.referencedTable
  match d.foreignKeys with
  | .plain =>
      " add constraint " ++ key.name ++ " foreign key (" ++ target ++
        if key.referencedColumns.isEmpty then ""
        else " (" ++ columnList key.referencedColumns ++ ")"
  | .quoted =>
      " add constraint " ++ Dialect.quoteIdentifier key.name ++ " foreign key (" ++ target ++
        " (" ++ columnList key.referencedColumns ++ ")"

namespace Table

def addForeignKeys (t : Table) (d : Dialect) : List String :=
  t.foreignKeys.map fun key => "alter table " ++ t.qualifiedName ++ d.addForeignKey key

def dropForeignKeys (t : Table) (d : Dialect) : List String :=
  let condition := if d.supports .ifExistsBeforeConstraint then "if exists " else ""
  t.foreignKeys.map fun key => t.alter d ++ " drop constraint " ++ condition ++ key.name

end Table

end SqlBackend
