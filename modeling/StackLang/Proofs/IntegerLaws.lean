import Mathlib.Algebra.Group.Int.Defs
import Mathlib.Algebra.Group.Nat.Defs
import StackLang.Proofs.OperatorEligibility

/-!
# Laws of integer arithmetic

Integers have 64 bits, and a result that does not fit is brought back into their range by a multiple
of `2 ^ 64` (`Represents`). Quotients are cut towards zero, and the remainder is what a quotient
leaves (`IsDivision`). The two together give the dividend back, also for the one quotient that does
not fit, which is that of the least integer by minus one.
-/

namespace StackLang

/-- A 64-bit integer stands for an exact result: it lies in the signed range, and the two differ by
a multiple of `2 ^ 64`. -/
structure Represents (number : Int64) (exact : Int) : Prop where
  lower : -2 ^ 63 ≤ number.toInt
  upper : number.toInt < 2 ^ 63
  congruent : (2 ^ 64 : Int) ∣ exact - number.toInt

/-- What quotient and remainder have to do with the dividend and the divisor. -/
structure IsDivision (dividend divisor quotient remainder : Int64) : Prop where
  /-- The quotient times the divisor and the remainder add up to the dividend. -/
  restored : (Operator.mul.apply (.int quotient) (.int divisor) >>= fun product =>
    Operator.add.apply product (.int remainder)) = .ok (.int dividend)
  smaller : remainder.toInt.natAbs < divisor.toInt.natAbs
  signed : remainder = 0 ∨ remainder.toInt.sign = dividend.toInt.sign
  /-- A quotient that fits is the exact one without its fraction. -/
  truncated : ¬ (dividend = Int64.minValue ∧ divisor = -1) →
    quotient.toInt = dividend.toInt.tdiv divisor.toInt
  /-- The quotient that does not fit wraps around, and nothing remains. -/
  overflowing : dividend = Int64.minValue ∧ divisor = -1 →
    quotient = Int64.minValue ∧ remainder = 0

variable {dividend divisor : Int64}

/-- An exact result that is reduced to the signed range is represented. -/
theorem Represents.of_bmod {number : Int64} {exact : Int}
    (reduced : number.toInt = exact.bmod (2 ^ 64)) : Represents number exact where
  lower := number.le_toInt
  upper := number.toInt_lt
  congruent := by
    rw [reduced]
    exact Int.dvd_self_sub_bmod

/-- Wrapping around loses nothing of the law that ties quotients to remainders: modulo `2 ^ 64` it
is the law of exact numbers, and the dividend is in range. -/
theorem quotient_mul_add_remainder (dividend divisor : Int64) :
    dividend / divisor * divisor + dividend % divisor = dividend := by
  apply Int64.toInt.inj
  calc (dividend / divisor * divisor + dividend % divisor).toInt
      = (dividend.toInt.tdiv divisor.toInt * divisor.toInt
          + dividend.toInt.tmod divisor.toInt).bmod (2 ^ 64) := by
        rw [Int64.toInt_add, Int64.toInt_mul, Int64.toInt_div, Int64.toInt_mod,
          Int.bmod_mul_bmod, Int.bmod_add_bmod]
    _ = dividend.toInt.bmod (2 ^ 64) := by rw [Int.tdiv_mul_add_tmod]
    _ = dividend.toInt := Int64.toInt_bmod dividend

theorem toInt_quotient (fits : ¬ (dividend = Int64.minValue ∧ divisor = -1)) :
    (dividend / divisor).toInt = dividend.toInt.tdiv divisor.toInt := by
  by_cases least : dividend = Int64.minValue
  · exact Int64.toInt_div_of_ne_right dividend divisor fun minusOne => fits ⟨least, minusOne⟩
  · exact Int64.toInt_div_of_ne_left dividend divisor least

theorem remainder_sign (dividend divisor : Int64) :
    dividend % divisor = 0 ∨ (dividend % divisor).toInt.sign = dividend.toInt.sign := by
  rw [Int64.toInt_mod, Int.sign_tmod]
  by_cases divides : divisor.toInt ∣ dividend.toInt
  · left
    apply Int64.toInt.inj
    rw [Int64.toInt_mod]
    exact Int.tmod_eq_zero_of_dvd divides
  · right
    rw [if_neg divides]

theorem isDivision_of_ne_zero (dividend : Int64) (nonzero : divisor ≠ 0) :
    IsDivision dividend divisor (dividend / divisor) (dividend % divisor) where
  restored := congrArg (fun number => Except.ok (Value.int number))
    (quotient_mul_add_remainder dividend divisor)
  smaller := by
    rw [Int64.toInt_mod, Int.natAbs_tmod]
    exact Nat.mod_lt _ (Int.natAbs_pos.mpr fun zero => nonzero (Int64.toInt.inj zero))
  signed := remainder_sign dividend divisor
  truncated := toInt_quotient
  overflowing := by
    rintro ⟨rfl, rfl⟩
    decide

/-- Sums, differences and products are exact up to multiples of `2 ^ 64`, quotients and remainders
are those of a division towards zero, and an operator fails on two integers only in a division by
zero. -/
theorem integer_arithmetic_wraps (left right : Int64) :
    (∃ sum, Operator.add.apply (.int left) (.int right) = .ok (.int sum) ∧
      Represents sum (left.toInt + right.toInt)) ∧
    (∃ difference, Operator.sub.apply (.int left) (.int right) = .ok (.int difference) ∧
      Represents difference (left.toInt - right.toInt)) ∧
    (∃ product, Operator.mul.apply (.int left) (.int right) = .ok (.int product) ∧
      Represents product (left.toInt * right.toInt)) ∧
    (right ≠ 0 → ∃ quotient remainder,
      Operator.div.apply (.int left) (.int right) = .ok (.int quotient) ∧
      Operator.mod.apply (.int left) (.int right) = .ok (.int remainder) ∧
      IsDivision left right quotient remainder) ∧
    ∀ (operator : Operator) (cause : RunError),
      operator.apply (.int left) (.int right) = .error cause ↔
        cause = .divisionByZero ∧ (operator = .div ∨ operator = .mod) ∧ right = 0 := by
  refine ⟨⟨left + right, rfl, .of_bmod (Int64.toInt_add left right)⟩,
    ⟨left - right, rfl, .of_bmod (Int64.toInt_sub left right)⟩,
    ⟨left * right, rfl, .of_bmod (Int64.toInt_mul left right)⟩, ?_, ?_⟩
  · intro nonzero
    exact ⟨left / right, left % right, if_neg nonzero, if_neg nonzero,
      isDivision_of_ne_zero left nonzero⟩
  · intro operator cause
    have eligible : operator.canApply (.int left) (.int right) = true := by
      cases operator <;> rfl
    exact Operator.apply_error_iff eligible

/-- The least integer divided by minus one. -/
theorem least_by_minus_one :
    (-1 : Int64) ≠ 0 ∧ ∃ quotient remainder,
      Operator.div.apply (.int Int64.minValue) (.int (-1)) = .ok (.int quotient) ∧
      Operator.mod.apply (.int Int64.minValue) (.int (-1)) = .ok (.int remainder) ∧
      IsDivision Int64.minValue (-1) quotient remainder :=
  ⟨by decide, (integer_arithmetic_wraps Int64.minValue (-1)).2.2.2.1 (by decide)⟩

end StackLang
