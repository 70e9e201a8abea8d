/-!
# Binary floating-point numbers taken apart

A number in 64 bits is a sign, eleven bits of exponent and 52 bits of fraction.
`BinaryFloat.ofFloat` reads them as an exact integer multiple of a power of two, on which rounding
and printing are computed without loss.
-/

namespace StackLang

/-- What the bits of a floating-point number denote. -/
inductive BinaryFloat where
  /-- Not a number. -/
  | nan
  /-- An infinity of the given sign. -/
  | infinite (negative : Bool)
  /-- The number of magnitude `mantissa * 2 ^ exponent`. -/
  | finite (negative : Bool) (mantissa : Nat) (exponent : Int)
deriving DecidableEq, Repr

namespace BinaryFloat

/-- The least mantissa of a number whose leading bit is not stored, which is `2 ^ 52`. -/
def hiddenBit : Nat := 0x10000000000000

/-- The exponent of the numbers next to zero. -/
def leastExponent : Int := -1074

/-- Take a floating-point number apart. -/
def ofFloat (number : Float) : BinaryFloat :=
  let bits := number.toBits.toNat
  let negative := bits >>> 63 == 1
  let biased := (bits >>> 52) % 2048
  let fraction := bits % hiddenBit
  if biased = 2047 then
    if fraction = 0 then .infinite negative else .nan
  else if biased = 0 then .finite negative fraction leastExponent
  else .finite negative (hiddenBit + fraction) (leastExponent + (biased - 1 : Nat))

/-- The magnitude `mantissa * 2 ^ exponent` with its fraction cut off. -/
def wholePart (mantissa : Nat) : Int → Nat
  | .ofNat exponent => mantissa * Nat.pow 2 exponent
  | .negSucc exponent => mantissa / Nat.pow 2 (exponent + 1)

/-- Cut off the fraction and bring what lies outside the 64-bit range to its nearer end; what is not
a number becomes zero. -/
def truncate : BinaryFloat → Int64
  | .nan => 0
  | .infinite negative => if negative then Int64.minValue else Int64.maxValue
  | .finite negative mantissa exponent =>
    let whole : Int := wholePart mantissa exponent
    Int64.ofIntClamp (if negative then -whole else whole)

end BinaryFloat

end StackLang
