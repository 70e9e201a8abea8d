import StackLang.Decimal.Shortest

/-!
# Writing floating-point numbers

Which numbers are written positionally and which with an exponent, and how the special ones are
spelt. A positional number always has a fraction, so that it cannot be taken for an integer.
-/

namespace StackLang

/-- The choices made in writing a floating-point number. -/
structure DecimalStyle where
  /-- The least exponent of the leading digit that is still written positionally. -/
  leastPositional : Int
  /-- The greatest exponent of the leading digit that is still written positionally. -/
  greatestPositional : Int
  /-- What stands between the digits and the exponent. -/
  exponentMark : String
  /-- What stands for an infinity. -/
  infinity : String
  /-- What stands for a result that is not a number. -/
  notANumber : String

namespace DecimalStyle

/-- The digits without trailing zeros, the leading one first. -/
def significant (digits : Nat) : List Char :=
  ((Nat.toDigits 10 digits).reverse.dropWhile (· == '0')).reverse

/-- Digits around a decimal point that has `whole` of them before it, where `whole` may lie outside
the digits. -/
def positional (digits : List Char) : Int → String
  | .ofNat 0 => "0." ++ String.ofList digits
  | .negSucc missing => "0." ++ String.ofList (List.replicate (missing + 1) '0' ++ digits)
  | .ofNat whole =>
    if digits.length ≤ whole then
      String.ofList (digits ++ List.replicate (whole - digits.length) '0') ++ ".0"
    else String.ofList (digits.take whole) ++ "." ++ String.ofList (digits.drop whole)

/-- One digit, the others as a fraction if there are any, and the exponent of the first. -/
def scientific (style : DecimalStyle) (digits : List Char) (leading : Int) : String :=
  let fraction := digits.drop 1
  String.ofList (digits.take 1) ++ (if fraction.isEmpty then "" else "." ++ String.ofList fraction)
    ++ style.exponentMark ++ toString leading

/-- Write a positive decimal. -/
def writeDecimal (style : DecimalStyle) (decimal : Decimal) : String :=
  let leading : Int := Decimal.digitCount decimal.digits + decimal.exponent - 1
  let digits := significant decimal.digits
  if style.leastPositional ≤ leading ∧ leading ≤ style.greatestPositional then
    positional digits (leading + 1)
  else style.scientific digits leading

/-- Write a floating-point number with the fewest digits that read back as it. -/
def write (style : DecimalStyle) : BinaryFloat → String
  | .nan => style.notANumber
  | .infinite negative => (if negative then "-" else "") ++ style.infinity
  | .finite negative mantissa exponent =>
    (if negative then "-" else "") ++
      (if mantissa = 0 then "0.0" else style.writeDecimal (Decimal.shortest mantissa exponent))

end DecimalStyle

end StackLang
