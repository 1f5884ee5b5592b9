import SqlBackend.Lock
import SqlBackend.SqlType
import SqlBackend.Statement.Operator

/-! # Statements

The statements that are put into text: queries, which contain expressions that
contain queries again, and the insertions, updates and deletions built on them.
Names and aliases are texts that go into a statement as they are.
-/

namespace SqlBackend

inductive Literal where
  | integer (value : Int)
  /-- A binary64 number, given by its bits. -/
  | float (bits : UInt64)
  | string (value : String)
  | boolean (value : Bool)
  | null
deriving DecidableEq, Repr

/-- A table under its own name, and the name it goes by in a statement. -/
structure NamedTable where
  name : String
  schema : Option String := none
  correlation : Option String := none
deriving DecidableEq, Repr

/-- The name of an object with its schema, if it has one. -/
def qualifiedName (schema : Option String) (name : String) : String :=
  match schema with
  | some s => s ++ "." ++ name
  | none => name

def NamedTable.expression (t : NamedTable) : String := qualifiedName t.schema t.name

/-- Whether the result of a common table expression is to be stored. -/
inductive Materialization where
  | materialized
  | notMaterialized
deriving DecidableEq, Repr

mutual

inductive Expr where
  | literal (value : Literal)
  | column (table : Option String) (name : String)
  | binary (left : Expr) (op : BinaryOp) (right : Expr)
  | unary (op : UnaryOp) (operand : Expr)
  | like (predicate : Like)
  | call (call : Call)
  | window (call : Call) (partition : List Expr) (order : List OrderItem)
  | subquery (query : Select)
  | tuple (items : List Expr)
  | isNull (operand : Expr) (negated : Bool)
  | distinctFrom (left right : Expr) (negated : Bool)
  | inList (operand : Expr) (items : List Expr) (negated : Bool)
  | inQuery (operand : Expr) (query : Select) (negated : Bool)
  | between (operand low high : Expr) (negated : Bool)
  | caseOf (operand : Option Expr) (branches : List CaseBranch) (otherwise : Option Expr)
  | cast (operand : Expr) (target : DataType)
  | paren (inner : Expr)
  | parameter
  | star (table : Option String)

structure CaseBranch where
  condition : Expr
  result : Expr

/-- A pattern match. Without an escape character every character of the pattern
but the wildcards stands for itself. -/
structure Like where
  subject : Expr
  pattern : Expr
  escape : Option Expr
  negated : Bool
  caseSensitive : Bool

/-- A function call. A filter restricts the rows that an aggregate sees. -/
structure Call where
  name : String
  args : List Expr
  distinct : Bool
  filter : Option Expr

structure OrderItem where
  expr : Expr
  direction : OrderDirection

inductive TableRef where
  | table (table : NamedTable)
  | query (query : Select) (correlation : String)
  | join (left : TableRef) (kind : JoinKind) (lateral : Bool) (right : TableRef)
      (condition : Option Expr)

/-- A common table expression. -/
structure Cte where
  name : String
  columns : List String
  query : Select
  materialization : Option Materialization

structure With where
  recursive : Bool
  ctes : List Cte

structure SelectItem where
  expr : Expr
  label : Option String

structure Select where
  withClause : Option With
  distinct : Bool
  columns : List SelectItem
  source : Option TableRef
  condition : Option Expr
  groupBy : List Expr
  having : Option Expr
  orderBy : List OrderItem
  limit : Option Expr
  offset : Option Expr
  lock : Option LockRequest

end

/-- The query for columns of a source, and nothing else. -/
def Select.plain (columns : List SelectItem) (source : Option TableRef) : Select :=
  ⟨none, false, columns, source, none, [], none, [], none, none, none⟩

/-- What an insertion inserts. -/
inductive InsertSource where
  | rows (rows : List (List Expr))
  | query (query : Select)
  | defaults

structure Insert where
  withClause : Option With
  target : NamedTable
  columns : List String
  values : InsertSource

structure Assignment where
  column : String
  value : Expr

structure Update where
  withClause : Option With
  target : NamedTable
  assignments : List Assignment
  sources : List TableRef
  condition : Option Expr

structure Delete where
  withClause : Option With
  target : NamedTable
  condition : Option Expr

inductive Statement where
  | select (query : Select)
  | insert (insertion : Insert)
  | update (change : Update)
  | delete (deletion : Delete)

/-- The kinds of statements that change a table. -/
inductive MutationKind where
  | insert
  | update
  | delete
deriving DecidableEq, Repr

end SqlBackend
