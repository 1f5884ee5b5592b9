import SqlBackend.Json.Reader
import SqlBackend.Proofs.Component.Reading
import SqlBackend.Text.Ascii
import SqlBackend.Text.Blank

/-! # Values of documents

What the expressions come to that write a document: a document, nothing, or a literal that
is made a document where one is expected. Setting a component of a document and making a
document of a value come to nothing if any of their arguments does.
-/

namespace SqlBackend

namespace Json

/-- The fields of an object. -/
abbrev Fields := List (JsonText × Json)

/-- The fields with one of them set, which comes last. -/
def setField (fields : Fields) (name : String) (value : Json) : Fields :=
  fields.filter (fun f => f.1.text ≠ name) ++ [({ text := name }, value)]

variable {fields : Fields} {name other : String} {value : Json}

theorem field?_setField_self : (object (setField fields name value)).field? name = some value := by
  simp [field?, setField]

theorem field?_setField_of_ne (h : other ≠ name) :
    (object (setField fields name value)).field? other = (object fields).field? other := by
  have hfind : (setField fields name value).reverse.find? (fun f => f.1.text = other) =
      fields.reverse.find? fun f => f.1.text = other := by
    rw [setField, List.reverse_append, List.reverse_singleton, List.singleton_append,
      List.find?_cons_of_neg (by simpa using h.symm), ← List.filter_reverse, List.find?_filter]
    congr 1
    funext f
    have hkept : f.1.text = other → f.1.text ≠ name := fun heq => heq ▸ h
    simpa using hkept
  exact congrArg (Option.map (·.2)) hfind

end Json

/-- What an expression comes to. -/
inductive DocumentValue where
  | null
  | document (json : Json)
  /-- A string literal, which becomes what is expected where it stands. -/
  | text (content : String)

namespace DocumentValue

def ofNullable : Option Json → DocumentValue
  | none => null
  | some json => document json

/-- The value where a document is expected. -/
def asDocument? : DocumentValue → Option DocumentValue
  | text content => (Json.read? content).map document
  | value => some value

/-- The first value unless it is null. -/
def coalesce : DocumentValue → DocumentValue → DocumentValue
  | null, second => second
  | first, _ => first

/-- The value as a document. -/
def toDocument : DocumentValue → DocumentValue
  | text content => document (.ofString content)
  | value => value

/-- Whether the character may stand without quotes in the path to a component. -/
def isPathChar (c : Char) : Bool :=
  !(c = '\x7b' || c = '\x7d' || c = ',' || c = '"' || c = '\\' || Text.isBlank c)

/-- The name in a path of one component: not empty, and not the word for null. -/
def pathComponent? (path : String) : Option String :=
  match path.toList with
  | '\x7b' :: rest =>
      let name := String.ofList (rest.takeWhile isPathChar)
      if rest.dropWhile isPathChar = ['\x7d'] ∧ name ≠ "" ∧ Text.lower name ≠ "null" then some name
      else none
  | _ => none

/-- The document with the component on a path set to a value. -/
def setPath? : DocumentValue → DocumentValue → DocumentValue → Option DocumentValue
  | null, _, _ => some null
  | _, null, _ => some null
  | _, _, null => some null
  | document (.object fields), text path, document value =>
      (pathComponent? path).map fun name => document (.object (Json.setField fields name value))
  | _, _, _ => none

/-- The value of a call of one of the functions for documents. -/
def call? : String → List DocumentValue → Option DocumentValue
  | "coalesce", [first, second] => do
      let first ← first.asDocument?
      let second ← second.asDocument?
      return first.coalesce second
  | "to_jsonb", [value] => some value.toDocument
  | "jsonb_set", [target, path, value] => do
      let target ← target.asDocument?
      let value ← value.asDocument?
      setPath? target path value
  | _, _ => none

end DocumentValue

namespace CallExpr

open DocumentValue (ofNullable call?)

mutual

/-- The value of an expression where one column has a value. Placeholders take the bound
values from left to right, and the values left over are handed back. -/
def eval (column : String) (value : Option Json) :
    CallExpr → List (Option Json) → Option (DocumentValue × List (Option Json))
  | .word text, bound =>
      if text = "?" then
        match bound with
        | [] => none
        | first :: rest => some (ofNullable first, rest)
      else if text = column then some (ofNullable value, bound)
      else none
  | .literal content, bound => some (.text content, bound)
  | .call function args, bound => do
      let (values, rest) ← evalArgs column value args bound
      let result ← call? function values
      return (result, rest)

/-- The values of the arguments of a call. -/
def evalArgs (column : String) (value : Option Json) :
    List CallExpr → List (Option Json) → Option (List DocumentValue × List (Option Json))
  | [], bound => some ([], bound)
  | arg :: args, bound => do
      let (first, rest) ← eval column value arg bound
      let (values, rest) ← evalArgs column value args rest
      return (first :: values, rest)

end

end CallExpr

/-- The value of a text where one column has a value and each placeholder takes one of the
bound values. A value counts as the document that is made of it. -/
def DocumentValue.ofText? (text column : String) (value : Option Json)
    (bound : List (Option Json)) : Option DocumentValue := do
  let e ← CallExpr.read? text
  let (result, rest) ← e.eval column value bound
  if rest.isEmpty then some result else none

end SqlBackend
