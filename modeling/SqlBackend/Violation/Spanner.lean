import SqlBackend.Text.Replace
import SqlBackend.Violation.Basic

/-! # Violations reported by Spanner

Spanner reports most violations by a status code and a message without an
SQLSTATE. Two codes decide by themselves. For all others the message is matched
against phrases, and the generic phrase comes last because the specific ones
may contain it.
-/

namespace SqlBackend

namespace SpannerStatus

def alreadyExists : Int := 6

def outOfRange : Int := 11

/-- The kind of constraint that a status code stands for. -/
def kind? (code : Int) : Option ConstraintKind :=
  if code = alreadyExists then some .unique
  else if code = outOfRange then some .check
  else none

end SpannerStatus

/-- A text that a message contains, together with one of some others if there
are any. -/
structure Phrase where
  required : String
  qualifiers : List String := []
  kind : ConstraintKind

namespace Phrase

def occursIn (p : Phrase) (message : String) : Bool :=
  Text.contains message p.required &&
    (p.qualifiers.isEmpty || p.qualifiers.any fun q => Text.contains message q)

/-- The phrases that name a kind of constraint. -/
def specific : List Phrase :=
  [{ required := "Cannot specify a null value for column", kind := .notNull },
    { required := "does not specify a non-null value for NOT NULL column", kind := .notNull },
    { required := "Check constraint", kind := .check },
    { required := "Foreign key"
      qualifiers := [" constraint violation on table",
        "constraint violation when deleting or updating referenced key"]
      kind := .foreignKey },
    { required := "Unique index violation", kind := .unique }]

/-- The phrase that only says that some constraint is violated. -/
def generic : Phrase := { required := "constraint violation", kind := .unknown }

/-- All phrases, in the order in which they are tried. -/
def all : List Phrase := specific ++ [generic]

/-- The kind of the first phrase that occurs in a message. -/
def kind? (message : String) : Option ConstraintKind :=
  (all.find? fun p => p.occursIn message).map (·.kind)

end Phrase

/-- Classifies a failure by its status code, and by its message if the code says
nothing. -/
def Failure.classifyBySpanner (f : Failure) : Option Violation :=
  ((SpannerStatus.kind? f.code).or (Phrase.kind? f.messageText)).map f.violation

end SqlBackend
