import SqlBackend.Decimal.Layout
import SqlBackend.Dialect.LockClause
import SqlBackend.Render.RowPredicate
import SqlBackend.Render.Translator
import SqlBackend.Statement.Basic
import SqlBackend.Text.Quoted

/-! # Clauses

How the parts of a query are put together from the renderings of their own
parts. Everything that depends on the features of the backend or on the style
of rendering is decided here.
-/

namespace SqlBackend

open Rendering (emit emitFragment fail)

def Literal.text : Literal → String
  | integer value => toString value
  | float bits => Decimal.textOfBits .statement bits
  | string value => Text.literal value
  | boolean value => if value then "true" else "false"
  | null => "null"

namespace Expr

def isTuple : Expr → Bool
  | tuple _ => true
  | _ => false

def isStar : Expr → Bool
  | star _ => true
  | _ => false

end Expr

/-- The feature that lets a backend compare rows by the operator. -/
def BinaryOp.rowFeature : BinaryOp → Feature
  | eq | ne => .rowConstructor
  | _ => .rowOrderComparison

namespace Translator

/-- Writes a lock clause, if the dialect grants the lock. -/
def lock (t : Translator) (request : LockRequest) : Rendering Unit := do
  emit (← .ofExcept (t.dialect.lockClause request))

/-- Writes whether a common table expression is to be stored. A backend that
does not take the hint decides by itself. -/
def hint (t : Translator) (m : Materialization) : Rendering Unit :=
  match t.style with
  | .spanner _ => pure ()
  | .standard =>
      if t.supports .materializationHint then
        match m with
        | .materialized => emit "materialized "
        | .notMaterialized => emit "not materialized "
      else pure ()

/-- One common table expression. -/
def cte (t : Translator) (name : String) (columns : List String) (m : Option Materialization)
    (query : Rendering Unit) : Rendering Unit := do
  emit name
  Rendering.listed " (" (columns.map emit)
  .when (!columns.isEmpty) (emit ")")
  emit " as "
  m.elim (pure ()) t.hint
  emit "("
  query
  emit ")"

/-- The common table expressions of a query, or of a statement that changes a
table. -/
def ctes (t : Translator) (mutation recursive : Bool) (items : List (Rendering Unit)) :
    Rendering Unit := do
  .when mutation (t.require .cteInMutation)
  .when recursive (t.require .recursiveCte)
  emit "with "
  .when recursive (emit "recursive ")
  .separated ", " items
  emit " "

/-- A table by its name, and the name it goes by. -/
def namedTable (table : NamedTable) : Rendering Unit := do
  emit table.expression
  .optional " " (table.correlation.map emit)

/-- The table that a statement changes. -/
def target (t : Translator) (table : NamedTable) (kind : MutationKind) : Rendering Unit := do
  emit table.expression
  .affect table.expression
  match t.style, kind with
  | .standard, .insert => pure ()
  | _, _ => .optional " " (table.correlation.map emit)

/-- A join of two tables. -/
def join (t : Translator) (left : Rendering Unit) (kind : JoinKind) (lateral : Bool)
    (right : Rendering Unit) (condition : Option (Rendering Unit)) : Rendering Unit := do
  left
  emit " "
  emit kind.text
  .when lateral do
    t.require .lateral
    emit " lateral"
  emit " "
  right
  .optional " on " condition

/-- The comparison of two rows: by row constructors where the backend compares
those, and otherwise by comparing their elements. -/
def rowComparison (t : Translator) (op : BinaryOp) (left right : List (Rendering Unit)) :
    Rendering Unit :=
  if left.length ≠ right.length ∨ left.length = 0 then
    fail (.illegalArgument (.tupleLengths left.length right.length))
  else do
    let l ← .fragments left
    let r ← .fragments right
    if t.supports op.rowFeature then emitFragment (RowPredicate.native op l r)
    else emitFragment (RowPredicate.comparison op (l.zip r)).fragment

/-- The elements of a row that is compared with rows of `width` elements. -/
def row (width : Nat) (elements : List (Rendering Unit)) : Rendering (List Fragment) :=
  if elements.length = width then .fragments elements
  else fail (.illegalArgument (.tupleLengths width elements.length))

/-- Whether a row is in a list of rows, without row constructors. -/
def rowMember (elements : List (Rendering Unit)) (candidates : Rendering (List (List Fragment)))
    (negated : Bool) : Rendering Unit :=
  if elements.isEmpty then fail (.illegalArgument .emptyTuple)
  else do
    let row ← .fragments elements
    let rows ← candidates
    emitFragment (RowPredicate.member row rows negated).fragment

/-- Membership in an empty list, which needs no operand. -/
def emptyMember (negated : Bool) : String := if negated then "(1 = 1)" else "(1 = 0)"

/-- What stands between an operand and the list or query it is looked up in. -/
def memberWords (negated : Bool) : String := if negated then " not in (" else " in ("

/-- Null-safe equality, by its predicate or by a formula. -/
def distinctFrom (t : Translator) (left right : Rendering Unit) (negated : Bool) :
    Rendering Unit :=
  if t.supports .distinctFrom then do
    left
    emit (if negated then " is not distinct from " else " is distinct from ")
    right
  else do
    let l ← left.detached
    let r ← right.detached
    emitFragment (RowPredicate.distinct l r negated).fragment

/-- The escape character of a pattern. The empty one means that there is none. -/
def escapeClause (escape : Option (Rendering Unit)) : Rendering Unit := do
  emit " escape "
  escape.getD (emit "''")

/-- A pattern whose backslashes stand for themselves where the backslash escapes
by default. -/
def reescaped (pattern : Expr) (rendered : Rendering Unit) : Rendering Unit :=
  match pattern with
  | .literal (.string value) => emit (Text.literal (Text.doubled '\\' value))
  | .literal .null => rendered
  | _ => do
      emit "replace("
      rendered
      emit ",'\\','\\\\')"

/-- A pattern with its escape character. -/
def likePattern (t : Translator) (pattern : Expr) (rendered : Rendering Unit)
    (escape : Option (Rendering Unit)) : Rendering Unit :=
  match t.style, escape with
  | .spanner .reescapeBackslash, none => reescaped pattern rendered
  | .spanner .omitEscapeClause, none => rendered
  | _, _ => do
      rendered
      escapeClause escape

/-- The operator between a text and its pattern. -/
def likeOperator (negated caseSensitive : Bool) : String :=
  (if negated then " not" else "") ++
    if caseSensitive then " like " else " " ++ Dialect.caseInsensitiveLike ++ " "

/-- A pattern match. Without an operator that ignores case, both sides are put
in lower case. -/
def like (t : Translator) (subject : Rendering Unit) (pattern : Expr) (rendered : Rendering Unit)
    (escape : Option (Rendering Unit)) (negated caseSensitive : Bool) : Rendering Unit :=
  if t.style = .standard ∧ !caseSensitive ∧ !t.supports .caseInsensitiveLike then do
    emit "lower("
    subject
    emit (if negated then ") not like lower(" else ") like lower(")
    rendered
    emit ")"
    escapeClause escape
  else do
    subject
    emit (likeOperator negated caseSensitive)
    t.likePattern pattern rendered escape

/-- The value of an argument where a condition is true, and null elsewhere. A
star counts rows, so any value does. -/
def filteredArgument (condition : Fragment) (arg : Expr) (rendered : Rendering Unit) :
    Rendering Fragment := do
  let value ← (if arg.isStar then pure (.ofText "1") else rendered.detached : Rendering Fragment)
  return .ofText "case when " ++ condition ++ .ofText " then " ++ value ++ .ofText " else null end"

/-- The arguments of a call that sees each of its values once. -/
def markDistinct : List Fragment → List Fragment
  | [] => []
  | first :: rest => (.ofText "distinct " ++ first) :: rest

/-- A function call. A filter is written behind the call, or put into the
arguments where the backend has no filter clause. -/
def call (t : Translator) (name : String) (args : List (Expr × Rendering Unit)) (distinct : Bool)
    (filter : Option (Rendering Unit)) : Rendering Unit := do
  let condition ← Rendering.detached? filter
  let native := t.supports .filterClause
  let values ← .sequence (args.map fun arg =>
    match condition, native with
    | some c, false => filteredArgument c arg.1 arg.2
    | _, _ => arg.2.detached)
  let arguments := if distinct then markDistinct values else values
  let called ← .ofExcept (t.dialect.functions.call name arguments)
  match condition, native with
  | some c, true => emitFragment (called ++ .ofText " filter (where " ++ c ++ .ofText ")")
  | _, _ => emitFragment called

/-- The window that a function is computed over. -/
def window (t : Translator) (partition order : List (Rendering Unit)) : Rendering Unit := do
  emit " over ("
  .when (!partition.isEmpty) (t.require .partitionBy)
  .listed "partition by " partition
  .when (!partition.isEmpty && !order.isEmpty) (emit " ")
  .listed "order by " order
  emit ")"

/-- A choice between values, each branch with its own words already. -/
def caseOf (operand : Option (Rendering Unit)) (branches : List (Rendering Unit))
    (otherwise : Option (Rendering Unit)) : Rendering Unit := do
  emit "case"
  .optional " " operand
  .separated "" branches
  .optional " else " otherwise
  emit " end"

end Translator

end SqlBackend
