import Mathlib.Data.Rat.Floor
import StackLang.Decimal.BinaryFloat

/-!
# Cutting off fractions

A finite floating-point number stands for an exact rational number (`rational?`). Truncation takes
the integer next to it on the side of zero and brings that into the range of 64 bits. An infinity
goes to an end of the range, and what is not a number becomes zero (`truncates`).
-/

namespace StackLang.BinaryFloat

/-- The rational number that a finite number stands for. -/
def rational? : BinaryFloat → Option ℚ
  | .finite negative mantissa exponent =>
    let magnitude : ℚ := mantissa * 2 ^ exponent
    some (if negative then -magnitude else magnitude)
  | .nan | .infinite _ => none

/-- The integer next to a rational number on the side of zero. -/
def towardZero (exact : ℚ) : Int :=
  if exact < 0 then ⌈exact⌉ else ⌊exact⌋

/-- An integer is what is left of a number when its fraction is cut off. -/
structure Truncates (number : BinaryFloat) (result : Int64) : Prop where
  notANumber : number = .nan → result = 0
  infinite : ∀ negative, number = .infinite negative →
    result = if negative then Int64.minValue else Int64.maxValue
  finite : ∀ exact, number.rational? = some exact →
    result.toInt = max Int64.minValue.toInt (min Int64.maxValue.toInt (towardZero exact))

theorem towardZero_of_nonneg {exact : ℚ} (nonneg : 0 ≤ exact) : towardZero exact = ⌊exact⌋ :=
  if_neg (not_lt.mpr nonneg)

theorem towardZero_neg (exact : ℚ) : towardZero (-exact) = -towardZero exact := by
  rcases lt_trichotomy exact 0 with negative | rfl | positive
  · rw [towardZero_of_nonneg (neg_nonneg.mpr negative.le), Int.floor_neg, towardZero,
      if_pos negative]
  · simp [towardZero]
  · rw [towardZero_of_nonneg positive.le, towardZero, if_pos (neg_lt_zero.mpr positive),
      Int.ceil_neg]

/-- Exactly the numbers between minus one and one have nothing but a fraction. -/
theorem towardZero_eq_zero_iff {exact : ℚ} : towardZero exact = 0 ↔ |exact| < 1 := by
  rw [abs_lt]
  by_cases negative : exact < 0
  · rw [towardZero, if_pos negative, Int.ceil_eq_zero_iff, Set.mem_Ioc]
    exact and_congr_right fun _ => iff_of_true negative.le (negative.trans one_pos)
  · rw [towardZero, if_neg negative, Int.floor_eq_zero_iff, Set.mem_Ico]
    have nonneg := not_lt.mp negative
    exact and_congr_left fun _ => iff_of_true nonneg (neg_one_lt_zero.trans_le nonneg)

theorem wholePart_eq_floor (mantissa : Nat) (exponent : Int) :
    (wholePart mantissa exponent : Int) = ⌊(mantissa : ℚ) * 2 ^ exponent⌋ := by
  cases exponent with
  | ofNat exponent =>
    have whole : (mantissa : ℚ) * 2 ^ (Int.ofNat exponent) =
        ((mantissa * 2 ^ exponent : Nat) : ℚ) := by
      push_cast
      rfl
    rw [whole, Int.floor_natCast]
    rfl
  | negSucc exponent =>
    have quotient : (mantissa : ℚ) * 2 ^ (Int.negSucc exponent) =
        (mantissa : ℚ) / ((2 ^ (exponent + 1) : Nat) : ℚ) := by
      rw [zpow_negSucc, div_eq_mul_inv]
      push_cast
      rfl
    rw [quotient, Rat.floor_natCast_div_natCast]
    rfl

theorem toInt_ofIntClamp (whole : Int) :
    (Int64.ofIntClamp whole).toInt =
      max Int64.minValue.toInt (min Int64.maxValue.toInt whole) := by
  have range : Int64.minValue.toInt ≤ Int64.maxValue.toInt := by decide
  unfold Int64.ofIntClamp
  split
  · next above =>
    split
    · next below => rw [Int64.toInt_ofIntLE, min_eq_right below, max_eq_right above]
    · next beyond => rw [min_eq_left (not_le.mp beyond).le, max_eq_right range]
  · next beneath =>
    have less := (not_le.mp beneath).le
    rw [min_eq_right (less.trans range), max_eq_left less]

/-- Truncation cuts off the fraction. -/
theorem truncates (number : BinaryFloat) : number.Truncates number.truncate where
  notANumber := by
    rintro rfl
    rfl
  infinite := by
    rintro negative rfl
    rfl
  finite := by
    intro exact known
    cases number with
    | nan | infinite => cases known
    | finite negative mantissa exponent =>
      cases known
      have nonneg : (0 : ℚ) ≤ mantissa * 2 ^ exponent :=
        mul_nonneg (Nat.cast_nonneg _) (zpow_nonneg zero_le_two _)
      rw [truncate, toInt_ofIntClamp, wholePart_eq_floor]
      cases negative with
      | false => rw [if_neg nofun, if_neg nofun, towardZero_of_nonneg nonneg]
      | true => rw [if_pos rfl, if_pos rfl, towardZero_neg, towardZero_of_nonneg nonneg]

/-- What becomes zero is no number, or smaller than one. -/
theorem truncate_eq_zero_iff {number : BinaryFloat} :
    number.truncate = 0 ↔ number = .nan ∨ ∃ exact, number.rational? = some exact ∧ |exact| < 1 := by
  cases number with
  | nan => exact iff_of_true rfl (.inl rfl)
  | infinite negative =>
    refine iff_of_false ?_ (by simp [rational?])
    cases negative <;> decide
  | finite negative mantissa exponent =>
    obtain ⟨exact, known⟩ : ∃ exact, (finite negative mantissa exponent).rational? = some exact :=
      ⟨_, rfl⟩
    have clamped := (truncates (.finite negative mantissa exponent)).finite exact known
    have least : Int64.minValue.toInt = -9223372036854775808 := rfl
    have greatest : Int64.maxValue.toInt = 9223372036854775807 := rfl
    rw [← Int64.toInt_inj, clamped, Int64.toInt_zero, known]
    simp only [reduceCtorEq, false_or, Option.some.injEq, exists_eq_left',
      ← towardZero_eq_zero_iff]
    omega

end StackLang.BinaryFloat
