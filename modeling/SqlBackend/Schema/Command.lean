import SqlBackend.Dialect.Basic

/-! # Commands on schemas and rows

The commands that create and drop a schema and that empty a table.
-/

namespace SqlBackend.Dialect

def createSchema (d : Dialect) (name : String) : Except Error (List String) :=
  (d.require .createSchema).map fun _ => ["create schema " ++ name]

def dropSchema (d : Dialect) (name : String) : Except Error (List String) :=
  (d.require .createSchema).map fun _ => ["drop schema if exists " ++ name ++ " cascade"]

def truncate (d : Dialect) (table : String) : String :=
  match d.truncation with
  | .truncate => "truncate table " ++ table
  | .deleteRows => "delete from " ++ table

end SqlBackend.Dialect
