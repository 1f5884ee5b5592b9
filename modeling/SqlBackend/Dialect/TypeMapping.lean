import SqlBackend.TypeTemplate

/-! # Types of a backend

How a backend spells the types of columns and casts, and the type that values
of a column are bound with. A text type that is declared longer than the
backend allows becomes its long text type.
-/

namespace SqlBackend

structure TypeMapping where
  /-- The template of a type code. -/
  template : SqlType → String
  /-- The spellings of `FLOAT` by its binary precision, where the backend has
  no type of every precision. -/
  floatByPrecision : Option ByCapacity := none
  /-- The type that values of a type code are bound with. -/
  binding : SqlType → SqlType := id
  /-- The type code of a result column, from the one that is reported and the
  reported name of its type. -/
  resolve : SqlType → String → SqlType := fun reported _ => reported
  /-- The name of an element type in array types. -/
  arrayElement : String → String := id
  maxVarcharLength : Nat
  maxVarbinaryLength : Nat

/-- The binary precision of a float type that does not declare one. -/
def doublePrecision : Nat := 53

namespace TypeMapping

/-- The template of a type of a declared size. -/
def sizedTemplate (m : TypeMapping) (type : SqlType) (size : Size) : String :=
  match type, m.floatByPrecision with
  | .float, some spellings =>
      spellings.templateFor (some (size.precision.getD doublePrecision))
  | _, _ =>
      if (type = .varchar || type = .char) && size.length.any (m.maxVarcharLength < ·) then
        m.template .longVarchar
      else m.template type

/-- The spelling of a type of a declared size. -/
def spelling (m : TypeMapping) (type : SqlType) (size : Size) : String :=
  expandTypeTemplate (m.sizedTemplate type size) size

/-- The spelling of a type in a cast. -/
def castSpelling (m : TypeMapping) (target : DataType) : String :=
  m.spelling target.type target.size

/-- The type of arrays of an element type. -/
def arrayOf (m : TypeMapping) (element : String) : String := m.arrayElement element ++ "[]"

def postgresTemplate : SqlType → String
  | .boolean => "boolean"
  | .tinyInt | .smallInt => "smallint"
  | .integer => "integer"
  | .bigInt => "bigint"
  | .float => "float($p)"
  | .real => "real"
  | .double => "float(53)"
  | .numeric | .decimal => "numeric($p,$s)"
  | .char => "char($l)"
  | .varchar => "varchar($l)"
  | .longVarchar | .clob | .nClob => "text"
  | .binary | .varbinary | .blob => "bytea"
  | .date => "date"
  | .time => "time"
  | .timestamp => "timestamp"
  | .timestampUtc | .timestampWithTimeZone => "timestamp with time zone"
  | .uuid => "uuid"
  | .json | .jsonArray => "jsonb"
  | .struct => "record"
  | .xml => "xml"

def postgres : TypeMapping where
  template := postgresTemplate
  maxVarcharLength := 10485760
  maxVarbinaryLength := 1073741823

/-- Spanner stores all whole numbers as `bigint`, has no fixed-length text, and
stores times with their zone if it is told to. -/
def spannerTemplate (timestamptzForTime : Bool) (type : SqlType) : String :=
  match type with
  | .time | .timestamp =>
      if timestamptzForTime then "timestamp with time zone" else postgresTemplate type
  | .tinyInt | .smallInt | .integer => postgresTemplate .bigInt
  | .char => postgresTemplate .varchar
  | .double => "double precision"
  | .longVarchar | .clob | .nClob => "character varying"
  | .numeric => "numeric"
  | .decimal => "decimal"
  | _ => postgresTemplate type

def spannerFloats : ByCapacity :=
  (ByCapacity.ofFallback "float($p)").withCapacity 24 "real"
    |>.withCapacity 53 "double precision"

def spanner (timestamptzForTime : Bool) : TypeMapping where
  template := spannerTemplate timestamptzForTime
  floatByPrecision := some spannerFloats
  binding type := if type.isIntegral then .bigInt else type
  resolve reported name :=
    if reported = .timestamp && name = "timestamp with time zone" then .timestampWithTimeZone
    else reported
  arrayElement name := if name = "varchar" then "text" else name
  maxVarcharLength := 2621440
  maxVarbinaryLength := 10485760

end TypeMapping

end SqlBackend
