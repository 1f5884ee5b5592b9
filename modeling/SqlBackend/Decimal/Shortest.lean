/-! # Shortest decimals of binary numbers

A binary64 number stands for every real number that rounds to it. Its decimal
is taken from the coarsest grid of powers of ten that meets this interval: that
is the fewest digits that read back. Of two grid points in the interval the
nearer one is taken; of two equally near either the upper one or the even one.
All arithmetic is exact, on natural numbers.
-/

namespace SqlBackend

/-- A decimal number `digits * 10 ^ exponent` with a sign. -/
structure Decimal where
  negative : Bool
  digits : Nat
  exponent : Int
deriving DecidableEq, Repr

namespace Decimal

/-- Which of two grid points that are equally near is taken. -/
inductive Tie where
  | upper
  | even
deriving DecidableEq, Repr

/-- What the sixty-four bits of a binary64 number stand for. A finite one is
`mantissa * 2 ^ exponent`; `evenGap` says that the next smaller number is as
far away as the next greater one. -/
inductive Binary where
  | nan
  | infinite (negative : Bool)
  | finite (negative : Bool) (mantissa : Nat) (exponent : Int) (evenGap : Bool)
deriving DecidableEq, Repr

/-- Reads sign, exponent and fraction out of the bits. -/
def Binary.ofBits (bits : UInt64) : Binary :=
  let negative := bits.toNat / 0x8000000000000000 = 1
  let field : Nat := bits.toNat / 0x10000000000000 % 0x800
  let fraction : Nat := bits.toNat % 0x10000000000000
  if field = 0x7FF then
    if fraction = 0 then .infinite negative else .nan
  else if field = 0 then
    .finite negative fraction (-1074) true
  else
    .finite negative (0x10000000000000 + fraction) ((field : Int) - 1075)
      (fraction ≠ 0 || field = 1)

/-- A number `value` between the ends of the interval that rounds to it, all
three over the common denominator `unit`. -/
structure Interval where
  low : Nat
  value : Nat
  high : Nat
  unit : Nat
  closed : Bool

/-- The reals that round to `mantissa * 2 ^ exponent`: half a gap on each side,
the ends included when the mantissa is even. -/
def Interval.around (mantissa : Nat) (exponent : Int) (evenGap : Bool) : Interval :=
  let scale := Nat.pow 2 (exponent - 2).toNat
  { low := (4 * mantissa - if evenGap then 2 else 1) * scale
    value := 4 * mantissa * scale
    high := (4 * mantissa + 2) * scale
    unit := Nat.pow 2 (2 - exponent).toNat
    closed := mantissa % 2 = 0 }

/-- Whether `multiple * 10 ^ step` lies in the interval. -/
def Interval.meets (i : Interval) (step : Int) (multiple : Nat) : Bool :=
  let point := multiple * (i.unit * Nat.pow 10 step.toNat)
  let low := i.low * Nat.pow 10 (-step).toNat
  let high := i.high * Nat.pow 10 (-step).toNat
  if i.closed then low ≤ point && point ≤ high else low < point && point < high

/-- The point of the grid of step `10 ^ step` that lies in the interval, as a
multiple of the step: the nearer one if both neighbours of the value do. -/
def Interval.onGrid? (i : Interval) (tie : Tie) (step : Int) : Option Nat :=
  let value := i.value * Nat.pow 10 (-step).toNat
  let unit := i.unit * Nat.pow 10 step.toNat
  let below := value / unit
  let above := below + 1
  match i.meets step below, i.meets step above with
  | false, false => none
  | true, false => some below
  | false, true => some above
  | true, true =>
      let toBelow := value - below * unit
      let toAbove := above * unit - value
      let tiesBelow := toBelow = toAbove ∧ tie = .even ∧ below % 2 = 0
      if toBelow < toAbove ∨ tiesBelow then some below else some above

/-- The steps worth trying, from the greatest finite number down to the least. -/
def gridSteps : List Int :=
  (List.range 633).map fun (n : Nat) => 308 - (n : Int)

/-- The decimal of the coarsest grid that meets the interval. -/
def Interval.shortest (i : Interval) (tie : Tie) (negative : Bool) : Decimal :=
  match gridSteps.findSome? fun step => (i.onGrid? tie step).map (·, step) with
  | some (digits, exponent) => ⟨negative, digits, exponent⟩
  | none => ⟨negative, 0, 0⟩

/-- The fewest digits that read back as `mantissa * 2 ^ exponent`. -/
def shortest (tie : Tie) (negative : Bool) (mantissa : Nat) (exponent : Int) (evenGap : Bool) :
    Decimal :=
  if mantissa = 0 then ⟨negative, 0, 0⟩
  else (Interval.around mantissa exponent evenGap).shortest tie negative

end Decimal

end SqlBackend
