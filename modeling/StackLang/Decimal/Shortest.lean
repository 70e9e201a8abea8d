import StackLang.Decimal.BinaryFloat

/-!
# Shortest decimals

Among the decimals that read back as a given floating-point number, the one with the fewest digits,
and of several such the one nearest to the number, a tie going to the larger. All arithmetic is on
natural numbers.
-/

namespace StackLang

/-- The number `digits * 10 ^ exponent`. -/
structure Decimal where
  digits : Nat
  exponent : Int
deriving DecidableEq, Repr

namespace Decimal

/-- A power with a possibly negative exponent, as numerator and denominator. -/
def ratioPower (base : Nat) : Int → Nat × Nat
  | .ofNat exponent => (Nat.pow base exponent, 1)
  | .negSucc exponent => (1, Nat.pow base (exponent + 1))

/-- The number of decimal digits of a natural number. -/
def digitCount (number : Nat) : Nat :=
  (Nat.toDigits 10 number).length

/-- The exponent `e` with `10 ^ e ≤ numerator / denominator < 10 ^ (e + 1)`. -/
def leadingExponent (numerator denominator : Nat) : Int :=
  if denominator ≤ numerator then digitCount (numerator / denominator) - 1
  else
    let places := digitCount (denominator / numerator)
    if denominator ≤ numerator * Nat.pow 10 (places - 1) then 1 - (places : Int)
    else -(places : Int)

/-- The reals that read back as one floating-point number, in quarters of its last binary place:
from `lower` to `upper` times `2 ^ exponent`, about `centre`. -/
structure Neighbourhood where
  lower : Nat
  centre : Nat
  upper : Nat
  exponent : Int
  /-- Whether the two ends read back as the number too. -/
  closed : Bool

namespace Neighbourhood

/-- The reals nearer to `mantissa * 2 ^ exponent` than to its neighbours. The neighbour below the
least mantissa of a binade is half as far away, and an end is rounded to an even mantissa. -/
def around (mantissa : Nat) (exponent : Int) : Neighbourhood where
  lower :=
    if mantissa = BinaryFloat.hiddenBit ∧ exponent ≠ BinaryFloat.leastExponent then
      4 * mantissa - 1
    else 4 * mantissa - 2
  centre := 4 * mantissa
  upper := 4 * mantissa + 2
  exponent := exponent - 2
  closed := mantissa % 2 == 0

/-- The decimal with the given exponent that reads back as the number and is nearest to it, if one
of the two multiples of that power of ten next to the number reads back at all. -/
def onGrid? (reals : Neighbourhood) (exponent : Int) : Option Decimal :=
  let (twos, perTwos) := ratioPower 2 reals.exponent
  let (tens, perTens) := ratioPower 10 exponent
  let scale := twos * perTens
  let unit := tens * perTwos
  let below := reals.centre * scale / unit
  let reaches (left right : Nat) : Bool := if reals.closed then left ≤ right else left < right
  let belowReads := reaches (reals.lower * scale) (below * unit)
  let aboveReads := reaches ((below + 1) * unit) (reals.upper * scale)
  let aboveNearer := unit ≤ 2 * (reals.centre * scale - below * unit)
  if aboveReads && (!belowReads || aboveNearer) then some ⟨below + 1, exponent⟩
  else if belowReads then some ⟨below, exponent⟩
  else none

end Neighbourhood

/-- Seventeen digits tell any two floating-point numbers apart. -/
def mostDigits : Nat := 17

/-- The shortest decimal that reads back as the positive number `mantissa * 2 ^ exponent`. -/
def shortest (mantissa : Nat) (exponent : Int) : Decimal :=
  let reals := Neighbourhood.around mantissa exponent
  let (twos, perTwos) := ratioPower 2 exponent
  let leading := leadingExponent (mantissa * twos) perTwos
  let hit := (List.range mostDigits).findSome? fun (further : Nat) =>
    reals.onGrid? (leading - further)
  hit.getD ⟨0, 0⟩

end Decimal

end StackLang
