import SqlBackend.Capabilities
import SqlBackend.Component
import SqlBackend.Dialect.TypeMapping
import SqlBackend.Function.Builtin
import SqlBackend.Lock
import SqlBackend.Sequence
import SqlBackend.Settings.Spanner
import SqlBackend.Violation.Basic
import SqlBackend.Violation.SqlState
import SqlBackend.Violation.Spanner

/-! # Dialects

A dialect describes a backend: what it supports, how it spells types, locks,
sequences and schema objects, how it reports violations, and by which rules
statements are rendered for it. A dialect is a value; whatever is not given is
as in PostgreSQL.
-/

namespace SqlBackend

/-- How a unique key is declared outside a column definition. -/
inductive UniqueKeyStyle where
  | constraint
  | uniqueIndex
deriving DecidableEq, Repr

/-- How a foreign key is added to a table. -/
inductive ForeignKeyStyle where
  /-- The name as it is, and no column list where none is declared. -/
  | plain
  /-- The name in double quotes, and always a column list. -/
  | quoted
deriving DecidableEq, Repr

/-- How a table is emptied. -/
inductive Truncation where
  | truncate
  | deleteRows
deriving DecidableEq, Repr

/-- Which statements create and drop a table. -/
inductive ExportStyle where
  | standard
  /-- A table needs a primary key, and its indexes are dropped before it. -/
  | spanner
deriving DecidableEq, Repr

inductive TemporaryTableKind where
  | localTable
  | globalTable
  | persistentTable
deriving DecidableEq, Repr

/-- How a change that involves several tables is carried out. -/
inductive MutationStrategy where
  | cte
  | localTemporaryTable
  | globalTemporaryTable
  | persistentTable
deriving DecidableEq, Repr

/-- What the violations that a backend reports are told by. -/
inductive ViolationStyle where
  | sqlState
  | spanner
deriving DecidableEq, Repr

/-- The rules that statements are rendered by. -/
inductive RenderingStyle where
  | standard
  /-- The rules of Spanner, with a policy for patterns without an escape. -/
  | spanner (likePolicy : LikePolicy)
deriving DecidableEq, Repr

structure Dialect where
  name : String
  capabilities : Capabilities
  functions : Registry
  minimumVersion : Version := { major := 12 }
  version : Version := minimumVersion
  types : TypeMapping := .postgres
  currentTime : String := "current_time"
  currentTimestamp : String := "current_timestamp"
  locking : LockingSupport := .postgres
  /-- Rows can be locked for reading only. Otherwise a read lock is taken as a
  write lock. -/
  sharedRowLocks : Bool := true
  /-- The query for the current schema, empty if there is none. -/
  currentSchema : String := "select current_schema()"
  truncation : Truncation := .truncate
  /-- What follows the name of a table that is dropped. -/
  cascade : String := " cascade"
  /-- A statement to run before a table is dropped. -/
  beforeDrop : Option String := none
  /-- The column that identifies a row. -/
  rowId : Option String := some "ctid"
  identityClause : String := "generated by default as identity"
  foreignKeys : ForeignKeyStyle := .plain
  uniqueKeys : UniqueKeyStyle := .constraint
  exporter : ExportStyle := .standard
  sequences : SequenceSyntax := .postgres
  components : ComponentAccess := .postgres
  localTemporaryTables : Option TemporaryTableKind := some .localTable
  globalTemporaryTables : Option TemporaryTableKind := none
  persistentTemporaryTables : Option TemporaryTableKind := some .persistentTable
  mutationStrategy : MutationStrategy := .cte
  insertStrategy : MutationStrategy := .cte
  violations : ViolationStyle := .sqlState
  rendering : RenderingStyle := .standard

namespace Dialect

def postgres : Dialect where
  name := "postgresql"
  capabilities := .postgres
  functions := .postgres

/-- The PostgreSQL interface of Spanner, which has none of the optional
features. -/
def spanner (settings : SpannerSettings) : Dialect where
  name := "spanner_postgresql"
  capabilities := Capabilities.postgres.withOverrides (Feature.all.map (·, false))
  functions := .spanner
  minimumVersion := .zero
  version := settings.version.getD .zero
  types := .spanner settings.timestamptzForTime
  currentTime := "current_timestamp"
  locking := .clauseOnly
  sharedRowLocks := false
  currentSchema := ""
  truncation := .deleteRows
  cascade := ""
  rowId := none
  identityClause := "generated by default as identity (bit_reversed_positive)"
  foreignKeys := .quoted
  uniqueKeys := .uniqueIndex
  exporter := .spanner
  sequences := .spanner
  components := .spanner
  localTemporaryTables := none
  mutationStrategy := .persistentTable
  insertStrategy := .persistentTable
  violations := .spanner
  rendering := .spanner settings.likePolicy

def supports (d : Dialect) (feature : Feature) : Bool := d.capabilities.supports feature

def unsupported (d : Dialect) (need : Need) : Error := .unsupported d.name need

/-- Refuses what needs a feature that the backend lacks. -/
def require (d : Dialect) (feature : Feature) : Except Error Unit :=
  if d.supports feature then .ok () else .error (d.unsupported (.feature feature))

/-- The mark that a bound value is put in for. -/
def placeholder : String := "?"

/-- The operator for matching without regard to case. -/
def caseInsensitiveLike : String := "ilike"

/-- The mark around identifiers. -/
def identifierQuote : String := "\""

/-- The name between double quotes, as it is. -/
def quoteIdentifier (name : String) : String := identifierQuote ++ name ++ identifierQuote

def classify (d : Dialect) (f : Failure) : Option Violation :=
  match d.violations with
  | .sqlState => f.classifyBySqlState
  | .spanner => f.classifyBySpanner

end Dialect

end SqlBackend
