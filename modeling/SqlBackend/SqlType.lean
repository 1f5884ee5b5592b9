/-! # SQL types

A type code names what a column holds or an expression is cast to. How a code
is spelled in statements is up to the backend; its own name appears in
messages.
-/

namespace SqlBackend

inductive SqlType where
  | boolean
  | tinyInt
  | smallInt
  | integer
  | bigInt
  | float
  | real
  | double
  | numeric
  | decimal
  | char
  | varchar
  | longVarchar
  | clob
  | nClob
  | binary
  | varbinary
  | blob
  | date
  | time
  | timestamp
  | timestampUtc
  | timestampWithTimeZone
  | uuid
  | json
  | jsonArray
  | struct
  | xml
deriving DecidableEq, Repr

namespace SqlType

def all : List SqlType :=
  [.boolean, .tinyInt, .smallInt, .integer, .bigInt, .float, .real, .double, .numeric, .decimal,
   .char, .varchar, .longVarchar, .clob, .nClob, .binary, .varbinary, .blob, .date, .time,
   .timestamp, .timestampUtc, .timestampWithTimeZone, .uuid, .json, .jsonArray, .struct, .xml]

def name : SqlType → String
  | boolean => "BOOLEAN"
  | tinyInt => "TINYINT"
  | smallInt => "SMALLINT"
  | integer => "INTEGER"
  | bigInt => "BIGINT"
  | float => "FLOAT"
  | real => "REAL"
  | double => "DOUBLE"
  | numeric => "NUMERIC"
  | decimal => "DECIMAL"
  | char => "CHAR"
  | varchar => "VARCHAR"
  | longVarchar => "LONGVARCHAR"
  | clob => "CLOB"
  | nClob => "NCLOB"
  | binary => "BINARY"
  | varbinary => "VARBINARY"
  | blob => "BLOB"
  | date => "DATE"
  | time => "TIME"
  | timestamp => "TIMESTAMP"
  | timestampUtc => "TIMESTAMP_UTC"
  | timestampWithTimeZone => "TIMESTAMP_WITH_TIMEZONE"
  | uuid => "UUID"
  | json => "JSON"
  | jsonArray => "JSON_ARRAY"
  | struct => "STRUCT"
  | xml => "SQLXML"

/-- The type code of a name. -/
def ofName? (name : String) : Option SqlType := all.find? fun t => t.name = name

def isIntegral : SqlType → Bool
  | tinyInt | smallInt | integer | bigInt => true
  | _ => false

/-- Whether values are JSON documents or arrays. -/
def isJson : SqlType → Bool
  | json | jsonArray => true
  | _ => false

end SqlType

/-- The declared size of a column or cast target. -/
structure Size where
  length : Option Nat := none
  precision : Option Nat := none
  scale : Option Nat := none
deriving DecidableEq, Repr

/-- A type code with its declared size. -/
structure DataType where
  type : SqlType
  size : Size := {}
deriving DecidableEq, Repr

end SqlBackend
