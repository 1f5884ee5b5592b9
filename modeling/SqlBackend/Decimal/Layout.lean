import SqlBackend.Decimal.Shortest

/-! # Layout of decimals

A decimal is written with its digits in place or with an exponent, depending on
where its first digit stands. SQL literals are always written in place and
without a point when they are whole; numbers in documents keep a point and
switch to an exponent when they grow long.
-/

namespace SqlBackend.Decimal

/-- How the parts of a number are put into text. -/
structure Layout where
  /-- The least and the greatest power of ten of the first digit for which the
  digits are written in place; `none` if they always are. -/
  inPlace : Option (Int × Int)
  /-- What a whole number in place ends with. -/
  wholeEnding : String
  /-- Which of two equally good last digits is written. -/
  tie : Tie

/-- Literals in statements: in place, and nothing behind a whole number. -/
def Layout.statement : Layout := ⟨none, "", .upper⟩

/-- Numbers in documents: `.0` behind whole numbers, and an exponent below
`10 ^ -5` and from `10 ^ 16`. -/
def Layout.document : Layout := ⟨some (-5, 15), ".0", .even⟩

/-- Digits written in place, with zeros up to the point where they are needed. -/
def inPlace (wholeEnding : String) (digits : String) (exponent : Int) : String :=
  let point := digits.length + exponent
  if 0 ≤ exponent then
    digits ++ String.ofList (List.replicate exponent.toNat '0') ++ wholeEnding
  else if 0 < point then
    String.ofList (digits.toList.take point.toNat) ++ "." ++
      String.ofList (digits.toList.drop point.toNat)
  else
    "0." ++ String.ofList (List.replicate (-point).toNat '0') ++ digits

/-- Digits written with one of them before the point, and an exponent with its
sign. -/
def withExponent (digits : String) (leading : Int) : String :=
  let fraction := digits.toList.drop 1
  String.ofList (digits.toList.take 1) ++
    (if fraction.isEmpty then "" else "." ++ String.ofList fraction) ++
    (if 0 ≤ leading then "e+" else "e") ++ toString leading

/-- The text of a decimal. Zero is written in place whatever its exponent. -/
def text (layout : Layout) (d : Decimal) : String :=
  let digits := toString d.digits
  let leading := digits.length + d.exponent - 1
  let placed : Bool := match layout.inPlace with
    | none => true
    | some (least, greatest) => d.digits = 0 || (least ≤ leading && leading ≤ greatest)
  (if d.negative then "-" else "") ++
    if placed then inPlace layout.wholeEnding digits d.exponent else withExponent digits leading

/-- The text of a binary64 number, given by its bits. -/
def textOfBits (layout : Layout) (bits : UInt64) : String :=
  match Binary.ofBits bits with
  | .nan => "NaN"
  | .infinite negative => if negative then "-inf" else "inf"
  | .finite negative mantissa exponent evenGap =>
      (shortest layout.tie negative mantissa exponent evenGap).text layout

end SqlBackend.Decimal
