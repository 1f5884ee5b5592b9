import SqlBackend.Json.Number

/-! # Writing JSON

Documents are written without spaces. In string literals the quotation mark,
the backslash and the control characters are escaped, and nothing else is.
-/

namespace SqlBackend.Json

/-- The lower-case hexadecimal digit of a number below sixteen. -/
def hexDigit (n : Nat) : Char := Nat.digitChar n

def escapeChar (c : Char) : List Char :=
  if c = '"' || c = '\\' then ['\\', c]
  else if c = Char.ofNat 0x08 then ['\\', 'b']
  else if c = Char.ofNat 0x0C then ['\\', 'f']
  else if c = '\n' then ['\\', 'n']
  else if c = '\r' then ['\\', 'r']
  else if c = '\t' then ['\\', 't']
  else if c.toNat < 0x20 then
    ['\\', 'u', '0', '0', hexDigit (c.toNat / 16), hexDigit (c.toNat % 16)]
  else [c]

/-- A text as a string literal. -/
def literal (text : String) : String :=
  "\"" ++ String.ofList (text.toList.flatMap escapeChar) ++ "\""

mutual

/-- The document without spaces, with every part as it is. -/
def compact : Json → String
  | null => "null"
  | boolean value => if value then "true" else "false"
  | number value => value.text
  | string value => literal value.text
  | array items => "[" ++ ",".intercalate (compactItems items) ++ "]"
  | object fields => "\x7b" ++ ",".intercalate (compactFields fields) ++ "\x7d"

def compactItems : List Json → List String
  | [] => []
  | item :: rest => compact item :: compactItems rest

def compactFields : List (JsonText × Json) → List String
  | [] => []
  | (name, value) :: rest => (literal name.text ++ ":" ++ compact value) :: compactFields rest

end

/-- Puts a field in its place among fields sorted by name. A field of the same
name stays; the new one is dropped. -/
def insertField (field : JsonText × Json) : List (JsonText × Json) → List (JsonText × Json)
  | [] => [field]
  | first :: rest =>
      if field.1.text < first.1.text then field :: first :: rest
      else if field.1.text = first.1.text then first :: rest
      else first :: insertField field rest

mutual

/-- The document with the fields of every object sorted by name, of which the
last one counts where a name is repeated. -/
def sorted : Json → Json
  | array items => array (sortedItems items)
  | object fields => object (sortedFields fields)
  | value => value

def sortedItems : List Json → List Json
  | [] => []
  | item :: rest => sorted item :: sortedItems rest

def sortedFields : List (JsonText × Json) → List (JsonText × Json)
  | [] => []
  | (name, value) :: rest => insertField (name, sorted value) (sortedFields rest)

end

end SqlBackend.Json
