import SqlBackend.Error
import SqlBackend.Text.Replace

/-! # Components of aggregate columns

A column may hold a JSON document or a structured value with components of its
own. A component is read by an access expression, and in a JSON document it is
written by setting its key in the whole document.
-/

namespace SqlBackend

/-- The aggregate types whose components a backend can reach. -/
structure ComponentAccess where
  /-- Structured types can be used besides JSON. -/
  structs : Bool
deriving DecidableEq, Repr

namespace ComponentAccess

def postgres : ComponentAccess := { structs := true }

def spanner : ComponentAccess := { structs := false }

/-- An expression with the access to a component in place of `placeholder`. -/
def read (a : ComponentAccess) (template placeholder parent component : String)
    (type : SqlType) : Except Error String :=
  if type.isJson then
    .ok (Text.replace template placeholder (parent ++ "->>'" ++ component ++ "'"))
  else if a.structs && type = .struct then
    .ok (Text.replace template placeholder ("(" ++ parent ++ ")." ++ component))
  else .error (.illegalArgument (.aggregateType type))

/-- What an assignment to a component assigns to. A JSON document is assigned
as a whole. -/
def assignmentTarget (a : ComponentAccess) (parent component : String) (type : SqlType) :
    Except Error String :=
  if type.isJson then .ok parent
  else if a.structs && type = .struct then .ok (parent ++ "." ++ component)
  else .error (.illegalArgument (.aggregateType type))

/-- Whether values of the type are written by an expression of their own. -/
def needsWriteExpression (a : ComponentAccess) (type : SqlType) : Bool :=
  type = .json || (a.structs && type = .struct)

/-- The document with one component set to a bound value. -/
def setComponent (document component : String) : String :=
  "jsonb_set(" ++ document ++ ",'\x7b" ++ component ++ "\x7d',to_jsonb(?))"

/-- The expression that writes components of a document, the first one
innermost. A missing document is written as an empty one. -/
def writeExpression (column : String) (type : SqlType) (components : List String) :
    Except Error String :=
  if type = .json then
    .ok (components.foldl setComponent ("coalesce(" ++ column ++ ",'\x7b\x7d')"))
  else .error (.illegalArgument (.aggregateType type))

end ComponentAccess

end SqlBackend
