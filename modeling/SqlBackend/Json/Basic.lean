/-! # JSON documents

A document as it is written: numbers keep their digits, objects the order and
repetitions of their fields, and string literals know whether their escapes
spell characters. What a number or a repetition means is up to the reader of
the document.
-/

namespace SqlBackend

/-- A number literal. -/
structure JsonNumber where
  negative : Bool := false
  /-- The digits before the point. -/
  whole : List Char
  /-- The digits behind the point, if there is one. -/
  fraction : List Char := []
  exponent : Option Int := none
deriving DecidableEq, Repr

/-- The content of a string literal. An escape for half of a surrogate pair
spells no character; U+FFFD stands in its place and the literal is not well
formed. -/
structure JsonText where
  text : String
  wellFormed : Bool := true
deriving DecidableEq, Repr

/-- The text of a well-formed literal. -/
def JsonText.text? (t : JsonText) : Option String := if t.wellFormed then some t.text else none

inductive Json where
  | null
  | boolean (value : Bool)
  | number (value : JsonNumber)
  | string (value : JsonText)
  | array (items : List Json)
  | object (fields : List (JsonText × Json))

namespace Json

def ofString (text : String) : Json := .string { text }

def ofNat (n : Nat) : Json := .number { whole := Nat.toDigits 10 n }

def ofInt (n : Int) : Json := .number { negative := n < 0, whole := Nat.toDigits 10 n.natAbs }

/-- An object of some fields in the order given. -/
def ofFields (fields : List (String × Json)) : Json :=
  .object (fields.map fun f => ({ text := f.1 }, f.2))

/-- The value of the last field of this name. -/
def field? (j : Json) (name : String) : Option Json :=
  match j with
  | object fields => (fields.reverse.find? fun f => f.1.text = name).map (·.2)
  | _ => none

end Json

end SqlBackend
