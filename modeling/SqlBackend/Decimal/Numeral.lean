/-! # Unsigned numerals

A numeral of thirty-two bits is read from left to right: an optional plus sign
and at least one digit. The first fault met wins, and a character that is no
digit is met before the overflow it would have caused.
-/

namespace SqlBackend.Decimal

/-- Why a text is not a numeral. -/
inductive NumeralFault where
  | empty
  | invalidDigit
  | tooLarge
deriving DecidableEq, Repr

def NumeralFault.message : NumeralFault → String
  | .empty => "cannot parse integer from empty string"
  | .invalidDigit => "invalid digit found in string"
  | .tooLarge => "number too large to fit in target type"

/-- The value of an ASCII digit. -/
def digitValue (c : Char) : Nat := c.toNat - 0x30

/-- Reads digits behind those that gave `value`. -/
def readDigits (value : Nat) : List Char → Except NumeralFault Nat
  | [] => .ok value
  | c :: rest =>
      if c.isDigit then
        let next := 10 * value + digitValue c
        if next < UInt32.size then readDigits next rest else .error .tooLarge
      else .error .invalidDigit

/-- Reads a numeral of thirty-two bits. -/
def readNumeral : List Char → Except NumeralFault Nat
  | [] => .error .empty
  | '+' :: [] => .error .invalidDigit
  | '+' :: digits => readDigits 0 digits
  | digits => readDigits 0 digits

end SqlBackend.Decimal
