import SqlBackend.Feature
import SqlBackend.SqlType

/-! # Errors

Everything that can go wrong while a statement, a schema object or a setting is
put into text or read, as causes with one wording each.
-/

namespace SqlBackend

/-- What a backend can be asked for and lack. -/
inductive Need where
  | feature (feature : Feature)
  /-- A lock that is waited for only a limited time. -/
  | lockTimeout
deriving DecidableEq, Repr

def Need.text : Need → String
  | feature f => f.text
  | lockTimeout => "lock timeout"

/-- Why an object cannot be created as declared. -/
inductive MappingFault where
  | noColumns (table : String)
  | unknownKeyColumn (column table : String)
  | zeroIncrement (sequence : String)
deriving DecidableEq, Repr

def MappingFault.text : MappingFault → String
  | noColumns table => "Table [" ++ table ++ "] has no columns"
  | unknownKeyColumn column table =>
      "Primary key column [" ++ column ++ "] not found in table [" ++ table ++ "]"
  | zeroIncrement sequence =>
      "Unable to create the sequence [" ++ sequence ++ "]: the increment size must not be 0"

/-- Why a request makes no sense on any backend. -/
inductive ArgumentFault where
  | selectWithoutColumns
  | insertWithoutValues
  | updateWithoutAssignments
  | tupleLengths (left right : Nat)
  | emptyTuple
  | itemNotTuple
  | argumentCount (function : String) (count : Nat)
  | aggregateType (type : SqlType)
deriving DecidableEq, Repr

def ArgumentFault.text : ArgumentFault → String
  | selectWithoutColumns => "select statement without columns"
  | insertWithoutValues => "insert statement without values"
  | updateWithoutAssignments => "update statement without assignments"
  | tupleLengths left right =>
      "cannot compare tuples of " ++ toString left ++ " and " ++ toString right ++ " elements"
  | emptyTuple => "cannot compare empty tuples"
  | itemNotTuple => "tuple IN list items must be tuples"
  | argumentCount function count =>
      "function '" ++ function ++ "' does not accept " ++ toString count ++ " argument(s)"
  | aggregateType type => "Unsupported aggregate SQL type: " ++ type.name

inductive Error where
  | unsupported (dialect : String) (need : Need)
  | mapping (fault : MappingFault)
  | illegalArgument (fault : ArgumentFault)
  | unknownFunction (name : String)
  | invalidSetting (name value : String)
deriving DecidableEq, Repr

def Error.message : Error → String
  | unsupported dialect need => dialect ++ " does not support " ++ need.text
  | mapping fault => "Mapping error: " ++ fault.text
  | illegalArgument fault => "Illegal argument: " ++ fault.text
  | unknownFunction name => "Unknown function: " ++ name
  | invalidSetting name value => "Invalid value '" ++ value ++ "' for setting '" ++ name ++ "'"

end SqlBackend
