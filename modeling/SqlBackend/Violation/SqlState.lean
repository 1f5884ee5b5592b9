import SqlBackend.Violation.Basic

/-! # Violations by SQLSTATE

The SQLSTATE class `23` stands for integrity violations. Four of its codes name
the kind of constraint; the others do not.
-/

namespace SqlBackend

/-- The kind of constraint that an SQLSTATE stands for. -/
def ConstraintKind.ofSqlState? (state : String) : Option ConstraintKind :=
  if state = "23505" then some .unique
  else if state = "23502" then some .notNull
  else if state = "23503" then some .foreignKey
  else if state = "23514" then some .check
  else if ['2', '3'].isPrefixOf state.toList then some .unknown
  else none

/-- Classifies a failure by its SQLSTATE alone. -/
def Failure.classifyBySqlState (f : Failure) : Option Violation := do
  let state ← f.sqlState
  let kind ← ConstraintKind.ofSqlState? state
  return f.violation kind

end SqlBackend
