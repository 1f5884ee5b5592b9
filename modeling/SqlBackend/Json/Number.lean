import SqlBackend.Decimal.Layout
import SqlBackend.Json.Reader

/-! # Numbers of documents

A number that is written without point and exponent is whole as long as it fits
in sixty-four bits. Every other one is a binary64 number: as many leading digits
as fit in sixty-four bits, scaled by a power of ten.
-/

namespace SqlBackend.JsonNumber

/-- Whether the number is written without point and exponent. -/
def isPlain (n : JsonNumber) : Bool := n.fraction.isEmpty && n.exponent.isNone

/-- The whole number that is meant, if the literal means one. A negative zero
is no whole number. -/
def whole? (n : JsonNumber) : Option Int :=
  let value := Json.digitsValue n.whole
  if !n.isPlain then none
  else if !n.negative then if value < UInt64.size then some value else none
  else if 0 < value ∧ value ≤ 0x8000000000000000 then some (-value)
  else none

/-- Appends digits to a number as long as it fits in sixty-four bits, and
counts them. -/
def accumulate (value : Nat) : List Char → Nat × Nat
  | [] => (value, 0)
  | c :: rest =>
      let next := 10 * value + Decimal.digitValue c
      if next < UInt64.size then
        let (value, count) := accumulate next rest
        (value, count + 1)
      else (value, 0)

/-- The number times a power of ten, by one multiplication or division where the
power is a binary64 number itself. -/
def scale (value : Float) (exponent : Int) : Float :=
  if h : exponent < -308 then
    if value == 0 then value else scale (value / 1e308) (exponent + 308)
  else if exponent < 0 then value / Float.ofScientific 1 false exponent.natAbs
  else if exponent ≤ 308 then value * Float.ofScientific 1 false exponent.natAbs
  else value / 0
termination_by (-exponent).toNat
decreasing_by omega

/-- The binary64 number that is meant. -/
def toFloat (n : JsonNumber) : Float :=
  let (whole, wholeCount) := accumulate 0 n.whole
  let (value, fractionCount) := accumulate whole n.fraction
  let exponent := (n.whole.length - wholeCount : Int) - fractionCount + n.exponent.getD 0
  let magnitude := scale (UInt64.ofNat value).toFloat exponent
  if n.negative then -magnitude else magnitude

/-- The text of the number that is meant. -/
def text (n : JsonNumber) : String :=
  match n.whole? with
  | some value => toString value
  | none => Decimal.textOfBits .document n.toFloat.toBits

end SqlBackend.JsonNumber
