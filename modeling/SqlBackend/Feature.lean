/-! # Optional features of a backend

A feature is something SQL text may use only on backends that have it. What a
statement needs and the backend lacks is reported under the feature's text.
-/

namespace SqlBackend

inductive Feature where
  | noWait
  | skipLocked
  | userDefinedTypes
  | filterClause
  | recursiveCycleUsing
  | recursiveSearch
  | inlineUnique
  | rowOrderComparison
  | rowInQuantifiedPredicate
  | rowInSubquery
  | caseInsensitiveLike
  | lateral
  | fromInUpdate
  | rowConstructor
  | ifExistsBeforeConstraint
  | ifExistsAfterAlterTable
  | distinctFrom
  | partitionBy
  | cteInMutation
  | recursiveCte
  | createSchema
  | batchTruncate
  | refCursor
  | materializationHint
deriving DecidableEq, Repr

namespace Feature

/-- Every feature, in the order in which features are listed. -/
def all : List Feature :=
  [.noWait, .skipLocked, .userDefinedTypes, .filterClause, .recursiveCycleUsing, .recursiveSearch,
   .inlineUnique, .rowOrderComparison, .rowInQuantifiedPredicate, .rowInSubquery,
   .caseInsensitiveLike, .lateral, .fromInUpdate, .rowConstructor, .ifExistsBeforeConstraint,
   .ifExistsAfterAlterTable, .distinctFrom, .partitionBy, .cteInMutation, .recursiveCte,
   .createSchema, .batchTruncate, .refCursor, .materializationHint]

def text : Feature → String
  | noWait => "for update nowait"
  | skipLocked => "for update skip locked"
  | userDefinedTypes => "user-defined types"
  | filterClause => "aggregate filter clause"
  | recursiveCycleUsing => "recursive cycle using clause"
  | recursiveSearch => "recursive search clause"
  | inlineUnique => "unique constraint in column definition"
  | rowOrderComparison => "row value constructor comparison"
  | rowInQuantifiedPredicate => "row value constructor in quantified predicates"
  | rowInSubquery => "row value constructor in IN subquery"
  | caseInsensitiveLike => "case-insensitive like"
  | lateral => "lateral"
  | fromInUpdate => "from clause in update"
  | rowConstructor => "row constructor"
  | ifExistsBeforeConstraint => "if exists before constraint name"
  | ifExistsAfterAlterTable => "if exists after alter table"
  | distinctFrom => "distinct from predicate"
  | partitionBy => "partition by"
  | cteInMutation => "common table expressions in DML statements"
  | recursiveCte => "recursive common table expressions"
  | createSchema => "schema creation"
  | batchTruncate => "batch truncate"
  | refCursor => "ref cursors"
  | materializationHint => "CTE materialization hints"

end Feature

end SqlBackend
