/-! # Constraint violations

A backend reports a failure with a code, perhaps an SQLSTATE, a message and the
statement. Where it is the violation of a constraint, the kind of constraint is
worth telling apart.
-/

namespace SqlBackend

inductive ConstraintKind where
  | unique
  | check
  | notNull
  | foreignKey
  /-- A constraint of a kind that the report does not tell. -/
  | unknown
deriving DecidableEq, Repr

def ConstraintKind.name : ConstraintKind → String
  | unique => "unique"
  | check => "check"
  | notNull => "not_null"
  | foreignKey => "foreign_key"
  | unknown => "unknown"

/-- A failure as the backend reports it. -/
structure Failure where
  code : Int
  message : Option String := none
  sqlState : Option String := none
  sql : Option String := none
deriving DecidableEq, Repr

/-- The message, empty if there is none. -/
def Failure.messageText (f : Failure) : String := f.message.getD ""

structure Violation where
  kind : ConstraintKind
  message : String
  code : Int
  sql : Option String
deriving DecidableEq, Repr

/-- The violation of a constraint of this kind that a failure reports. -/
def Failure.violation (f : Failure) (kind : ConstraintKind) : Violation :=
  ⟨kind, f.messageText, f.code, f.sql⟩

end SqlBackend
