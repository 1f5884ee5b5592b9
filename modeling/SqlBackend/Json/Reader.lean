import SqlBackend.Decimal.Numeral
import SqlBackend.Json.Basic

/-! # Reading JSON

A document is read to its end, with spaces, tabs and line ends allowed between
its parts. Every reader takes characters and returns what is left of them.
-/

namespace SqlBackend.Json

open Decimal (digitValue)

def isSpace (c : Char) : Bool := c = ' ' || c = '\t' || c = '\n' || c = '\r'

def skipSpace (chars : List Char) : List Char := chars.dropWhile isSpace

/-- The value of a hexadecimal digit. -/
def hexValue? (c : Char) : Option Nat :=
  if c.isDigit then some (digitValue c)
  else if 'a' ≤ c ∧ c ≤ 'f' then some (c.toNat - 0x57)
  else if 'A' ≤ c ∧ c ≤ 'F' then some (c.toNat - 0x37)
  else none

/-- The number that four hexadecimal digits spell. -/
def hex4? (a b c d : Char) : Option Nat := do
  let a ← hexValue? a
  let b ← hexValue? b
  let c ← hexValue? c
  let d ← hexValue? d
  return ((a * 16 + b) * 16 + c) * 16 + d

/-- The character that a letter behind a backslash stands for. -/
def escaped? (c : Char) : Option Char :=
  if c = '"' || c = '\\' || c = '/' then some c
  else if c = 'b' then some (Char.ofNat 0x08)
  else if c = 'f' then some (Char.ofNat 0x0C)
  else if c = 'n' then some '\n'
  else if c = 'r' then some '\r'
  else if c = 't' then some '\t'
  else none

/-- What a string literal is made of: characters, and numbered escapes. -/
inductive TextUnit where
  | char (c : Char)
  | escape (unit : Nat)

/-- Reads the inside of a string literal up to its closing mark. -/
def readUnits : List Char → Option (List TextUnit × List Char)
  | [] => none
  | '"' :: rest => some ([], rest)
  | '\\' :: 'u' :: a :: b :: c :: d :: rest => do
      let unit ← hex4? a b c d
      let (units, rest) ← readUnits rest
      return (.escape unit :: units, rest)
  | '\\' :: c :: rest => do
      let c ← escaped? c
      let (units, rest) ← readUnits rest
      return (.char c :: units, rest)
  | c :: rest => do
      if c.toNat < 0x20 || c = '\\' then none
      else
        let (units, rest) ← readUnits rest
        return (.char c :: units, rest)

/-- The characters that units spell, two halves of a surrogate pair together. -/
def spell : List TextUnit → JsonText
  | [] => { text := "" }
  | .char c :: rest =>
      let spelled := spell rest
      { spelled with text := String.singleton c ++ spelled.text }
  | .escape high :: .escape low :: rest =>
      if 0xD800 ≤ high ∧ high < 0xDC00 ∧ 0xDC00 ≤ low ∧ low < 0xE000 then
        let c := Char.ofNat (0x10000 + (high - 0xD800) * 0x400 + (low - 0xDC00))
        let spelled := spell rest
        { spelled with text := String.singleton c ++ spelled.text }
      else
        let spelled := spell (.escape low :: rest)
        if 0xD800 ≤ high ∧ high < 0xE000 then ⟨"\uFFFD" ++ spelled.text, false⟩
        else { spelled with text := String.singleton (Char.ofNat high) ++ spelled.text }
  | .escape unit :: rest =>
      let spelled := spell rest
      if 0xD800 ≤ unit ∧ unit < 0xE000 then ⟨"\uFFFD" ++ spelled.text, false⟩
      else { spelled with text := String.singleton (Char.ofNat unit) ++ spelled.text }

/-- Reads a string literal behind its opening mark. -/
def readText (chars : List Char) : Option (JsonText × List Char) :=
  (readUnits chars).map fun read => (spell read.1, read.2)

/-- Reads at least one digit. -/
def readDigits1 (chars : List Char) : Option (List Char × List Char) :=
  let digits := chars.takeWhile Char.isDigit
  if digits.isEmpty then none else some (digits, chars.dropWhile Char.isDigit)

def digitsValue (digits : List Char) : Nat :=
  digits.foldl (fun value c => 10 * value + digitValue c) 0

/-- Reads the digits before the point: a zero alone, or digits that start with
another one. -/
def readWhole : List Char → Option (List Char × List Char)
  | '0' :: rest => some (['0'], rest)
  | chars => readDigits1 chars

/-- Reads the point and the digits behind it, if there is a point. -/
def readFraction : List Char → Option (List Char × List Char)
  | '.' :: rest => readDigits1 rest
  | chars => some ([], chars)

/-- Reads an exponent behind its mark. -/
def readSignedExponent : List Char → Option (Int × List Char)
  | '-' :: rest => (readDigits1 rest).map fun read => (-(digitsValue read.1 : Int), read.2)
  | '+' :: rest => (readDigits1 rest).map fun read => ((digitsValue read.1 : Int), read.2)
  | chars => (readDigits1 chars).map fun read => ((digitsValue read.1 : Int), read.2)

/-- Reads an exponent, if there is one. -/
def readExponent : List Char → Option (Option Int × List Char)
  | 'e' :: rest => (readSignedExponent rest).map fun read => (some read.1, read.2)
  | 'E' :: rest => (readSignedExponent rest).map fun read => (some read.1, read.2)
  | chars => some (none, chars)

def readUnsigned (negative : Bool) (chars : List Char) : Option (JsonNumber × List Char) := do
  let (whole, rest) ← readWhole chars
  let (fraction, rest) ← readFraction rest
  let (exponent, rest) ← readExponent rest
  return (⟨negative, whole, fraction, exponent⟩, rest)

def readNumber : List Char → Option (JsonNumber × List Char)
  | '-' :: rest => readUnsigned true rest
  | chars => readUnsigned false chars

/-- Reads a word behind its first letter. -/
def readWord (word : List Char) (value : Json) (chars : List Char) : Option (Json × List Char) :=
  if word.isPrefixOf chars then some (value, chars.drop word.length) else none

mutual

/-- Reads a value. The number bounds how often a reader may call another one. -/
def readValue : Nat → List Char → Option (Json × List Char)
  | 0, _ => none
  | fuel + 1, chars =>
      match skipSpace chars with
      | [] => none
      | 'n' :: rest => readWord ['u', 'l', 'l'] .null rest
      | 't' :: rest => readWord ['r', 'u', 'e'] (.boolean true) rest
      | 'f' :: rest => readWord ['a', 'l', 's', 'e'] (.boolean false) rest
      | '"' :: rest => (readText rest).map fun read => (.string read.1, read.2)
      | '[' :: rest =>
          match skipSpace rest with
          | ']' :: rest => some (.array [], rest)
          | rest => (readItems fuel rest).map fun read => (.array read.1, read.2)
      | '\x7b' :: rest =>
          match skipSpace rest with
          | '\x7d' :: rest => some (.object [], rest)
          | rest => (readFields fuel rest).map fun read => (.object read.1, read.2)
      | rest => (readNumber rest).map fun read => (.number read.1, read.2)

/-- Reads the items of an array up to its end. -/
def readItems : Nat → List Char → Option (List Json × List Char)
  | 0, _ => none
  | fuel + 1, chars => do
      let (item, rest) ← readValue fuel chars
      match skipSpace rest with
      | ',' :: rest => do
          let (items, rest) ← readItems fuel rest
          return (item :: items, rest)
      | ']' :: rest => return ([item], rest)
      | _ => none

/-- Reads the fields of an object up to its end. -/
def readFields : Nat → List Char → Option (List (JsonText × Json) × List Char)
  | 0, _ => none
  | fuel + 1, chars =>
      match skipSpace chars with
      | '"' :: rest => do
          let (name, rest) ← readText rest
          match skipSpace rest with
          | ':' :: rest => do
              let (value, rest) ← readValue fuel rest
              match skipSpace rest with
              | ',' :: rest => do
                  let (fields, rest) ← readFields fuel rest
                  return ((name, value) :: fields, rest)
              | '\x7d' :: rest => return ([(name, value)], rest)
              | _ => none
          | _ => none
      | _ => none

end

/-- Reads a whole document. Every second call of a reader takes a character. -/
def read? (text : String) : Option Json := do
  let chars := text.toList
  let (value, rest) ← readValue (2 * chars.length + 2) chars
  if (skipSpace rest).isEmpty then some value else none

end SqlBackend.Json
