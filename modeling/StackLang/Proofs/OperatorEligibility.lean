import StackLang.Proofs.Truncation
import StackLang.Value.Arithmetic

/-!
# What operators can be applied to

`Operator.canApply` decides in advance whether an operator has a meaning on two values, and
`Operator.apply` finds out while it computes. Both agree with `Operator.outcome?`, which first
brings the operands to their common form and then asks whether the operator is defined on it. So an
operator that is eligible fails in a division by zero only, and the kind of its result is known from
the kinds of its operands.
-/

namespace StackLang

/-- The right one of two values is zero or false once both are in their common form, and the form is
one in which that matters: floating-point numbers can be divided by zero. -/
def Value.DividesByZero : Value → Value → Prop
  | .int _, .int right => right = 0
  | .int _, .float right => (BinaryFloat.ofFloat right).truncate = 0
  | .float _, .int right => right = 0
  | .bool _, .int right => right = 0
  | .int _, .bool right => right = false
  | _, _ => False

/-- A floating-point number divides an integer as zero if it is not a number or smaller than one. -/
theorem Value.dividesByZero_float_iff {left : Int64} {right : Float} :
    (Value.int left).DividesByZero (.float right) ↔ BinaryFloat.ofFloat right = .nan ∨
      ∃ exact, (BinaryFloat.ofFloat right).rational? = some exact ∧ |exact| < 1 :=
  BinaryFloat.truncate_eq_zero_iff

/-- The kind of what is computed from values of two kinds, if it is not the answer of a
comparison. -/
def Kind.common? : Kind → Kind → Option Kind
  | .int, .int | .int, .float | .float, .int => some .int
  | .float, .float => some .float
  | .bool, .int | .int, .bool => some .bool
  | .string, .string => some .string
  | _, _ => none

namespace Operator

variable {operator : Operator} {result : Value} {cause : RunError}

/-- Apply an operator to integers, with something else to do for a comparison that is left without
an answer. -/
def applyIntsOr (unanswered : Except RunError Value) (operator : Operator) (left right : Int64) :
    Except RunError Value :=
  match operator.compare? left right with
  | some truth => .ok (.bool truth)
  | none =>
    match operator with
    | .add => .ok (.int (left + right))
    | .sub => .ok (.int (left - right))
    | .mul => .ok (.int (left * right))
    | .div => if right = 0 then .error .divisionByZero else .ok (.int (left / right))
    | .mod => if right = 0 then .error .divisionByZero else .ok (.int (left % right))
    | .eq | .ne | .lt | .le | .gt | .ge => unanswered

theorem applyIntsOr_eq (unanswered : Except RunError Value) (operator : Operator)
    (left right : Int64) :
    operator.applyIntsOr unanswered left right = operator.applyInts left right := by
  cases operator <;> rfl

theorem applyInts_error_iff {left right : Int64} :
    operator.applyInts left right = .error cause ↔
      cause = .divisionByZero ∧ (operator = .div ∨ operator = .mod) ∧ right = 0 := by
  by_cases zero : right = 0 <;> cases operator <;> simp [applyInts, compare?, zero, eq_comm]

theorem applyInts_kind {left right : Int64}
    (succeeded : operator.applyInts left right = .ok result) :
    result.kind = if operator.isComparison then .bool else .int := by
  by_cases zero : right = 0
  all_goals cases operator <;> simp [applyInts, compare?, zero] at succeeded <;>
    rw [← succeeded] <;> rfl

theorem applyBools_error_iff {left right : Bool} :
    operator.applyBools left right = .error cause ↔
      cause = .divisionByZero ∧ (operator = .div ∨ operator = .mod) ∧ right = false := by
  have asInts : operator.applyBools left right = .error cause ↔
      operator.applyInts (if left then 1 else 0) (if right then 1 else 0) = .error cause := by
    unfold applyBools
    split
    · next number computed => simp [computed]
    · rfl
  rw [asInts, applyInts_error_iff]
  cases right <;> simp

theorem applyBools_kind {left right : Bool}
    (succeeded : operator.applyBools left right = .ok result) : result.kind = .bool := by
  unfold applyBools at succeeded
  split at succeeded
  · cases succeeded
    rfl
  · next notInt =>
    -- What is no integer is the answer of a comparison.
    have kind_eq := applyInts_kind succeeded
    split at kind_eq
    · exact kind_eq
    · cases result with
      | int number => exact absurd succeeded (notInt number)
      | _ => cases kind_eq

theorem applyFloats?_kind {left right : Float}
    (succeeded : operator.applyFloats? left right = some result) :
    result.kind = if operator.isComparison then .bool else .float := by
  cases operator <;> cases succeeded <;> rfl

theorem applyStrings?_kind {left right : String}
    (succeeded : operator.applyStrings? left right = some result) :
    result.kind = if operator.isComparison then .bool else .string := by
  cases operator <;> cases succeeded <;> rfl

end Operator

namespace Operands

variable {operator : Operator} {left right result : Value} {cause : RunError} {operands : Operands}

/-- The kind of operands in their common form. -/
def kind : Operands → Kind
  | .ints _ _ => .int
  | .floats _ _ => .float
  | .bools _ _ => .bool
  | .strings _ _ => .string

/-- Operands that cannot be divided. -/
def ZeroDivisor : Operands → Prop
  | .ints _ right => right = 0
  | .bools _ right => right = false
  | .floats _ _ | .strings _ _ => False

/-- What an operator gives on operands in their common form, if it is defined on it. -/
def evaluate? (operator : Operator) : Operands → Option (Except RunError Value)
  | .ints left right => some (operator.applyInts left right)
  | .floats left right => (operator.applyFloats? left right).map .ok
  | .bools left right => some (operator.applyBools left right)
  | .strings left right => (operator.applyStrings? left right).map .ok

theorem evaluate?_error_iff :
    operands.evaluate? operator = some (.error cause) ↔
      cause = .divisionByZero ∧ (operator = .div ∨ operator = .mod) ∧ operands.ZeroDivisor := by
  cases operands with
  | ints left right =>
    rw [evaluate?, Option.some_inj, Operator.applyInts_error_iff]
    rfl
  | bools left right =>
    rw [evaluate?, Option.some_inj, Operator.applyBools_error_iff]
    rfl
  | floats left right => simp [evaluate?, ZeroDivisor]
  | strings left right => simp [evaluate?, ZeroDivisor]

theorem evaluate?_kind (succeeded : operands.evaluate? operator = some (.ok result)) :
    result.kind = if operator.isComparison then .bool else operands.kind := by
  cases operands with
  | ints left right => exact Operator.applyInts_kind (Option.some.inj succeeded)
  | floats left right =>
    simp only [evaluate?, Option.map_eq_some_iff] at succeeded
    obtain ⟨value, applied, same⟩ := succeeded
    cases same
    exact Operator.applyFloats?_kind applied
  | bools left right =>
    rw [Operator.applyBools_kind (Option.some.inj succeeded), kind, ite_self]
  | strings left right =>
    simp only [evaluate?, Option.map_eq_some_iff] at succeeded
    obtain ⟨value, applied, same⟩ := succeeded
    cases same
    exact Operator.applyStrings?_kind applied

theorem ofValues?_spec (found : ofValues? left right = some operands) :
    left.kind.common? right.kind = some operands.kind ∧
      (left.DividesByZero right ↔ operands.ZeroDivisor) := by
  cases left <;> cases right <;> cases found <;>
    simp [Value.kind, Kind.common?, kind, Value.DividesByZero, ZeroDivisor]

end Operands

namespace Operator

variable {operator : Operator} {left right result : Value} {cause : RunError} {operands : Operands}

/-- The common form in which an operator is applied to two values. A remainder is taken of two
integers only. -/
def operands? (operator : Operator) (left right : Value) : Option Operands :=
  match operator, left, right with
  | .mod, .int leftNumber, .int rightNumber => some (.ints leftNumber rightNumber)
  | .mod, _, _ => none
  | _, _, _ => Operands.ofValues? left right

/-- What an operator gives on two values, if it has a meaning on them. -/
def outcome? (operator : Operator) (left right : Value) : Option (Except RunError Value) :=
  (operator.operands? left right).bind (Operands.evaluate? operator)

theorem ofValues?_of_operands? (found : operator.operands? left right = some operands) :
    Operands.ofValues? left right = some operands := by
  unfold operands? at found
  split at found
  · exact found
  · cases found
  · exact found

theorem apply_eq (operator : Operator) (left right : Value) :
    operator.apply left right =
      (operator.outcome? left right).getD
        (.error (.unsupportedOperation operator left.kind right.kind)) := by
  cases operator with
  | mod => cases left <;> cases right <;> rfl
  | _ =>
    unfold outcome? operands? apply
    cases Operands.ofValues? left right with
    | none => rfl
    | some operands => cases operands <;> rfl

theorem canApply_eq (operator : Operator) (left right : Value) :
    operator.canApply left right = (operator.outcome? left right).isSome := by
  cases operator with
  | mod => cases left <;> cases right <;> rfl
  | _ =>
    unfold outcome? operands? canApply
    cases Operands.ofValues? left right with
    | none => rfl
    | some operands => cases operands <;> rfl

theorem apply_of_not_canApply (ineligible : operator.canApply left right = false) :
    operator.apply left right =
      .error (.unsupportedOperation operator left.kind right.kind) := by
  rw [canApply_eq, Option.isSome_eq_false_iff, Option.isNone_iff_eq_none] at ineligible
  rw [apply_eq, ineligible]
  rfl

/-- An eligible operator has a common form of its operands on which it is defined. -/
theorem exists_operands_of_canApply (eligible : operator.canApply left right = true) :
    ∃ operands, Operands.ofValues? left right = some operands ∧
      operands.evaluate? operator = some (operator.apply left right) := by
  rw [canApply_eq, Option.isSome_iff_exists] at eligible
  obtain ⟨outcome, computed⟩ := eligible
  obtain ⟨operands, found, applied⟩ := Option.bind_eq_some_iff.mp computed
  refine ⟨operands, ofValues?_of_operands? found, ?_⟩
  rw [apply_eq, computed, applied]
  rfl

/-- An eligible operator fails in a division by zero, and in nothing else. -/
theorem apply_error_iff (eligible : operator.canApply left right = true) :
    operator.apply left right = .error cause ↔
      cause = .divisionByZero ∧ (operator = .div ∨ operator = .mod) ∧
        left.DividesByZero right := by
  obtain ⟨operands, found, applied⟩ := exists_operands_of_canApply eligible
  rw [(Operands.ofValues?_spec found).2, ← Operands.evaluate?_error_iff, applied, Option.some_inj]

theorem canApply_of_apply (succeeded : operator.apply left right = .ok result) :
    operator.canApply left right = true := by
  cases eligible : operator.canApply left right with
  | true => rfl
  | false =>
    rw [apply_of_not_canApply eligible] at succeeded
    cases succeeded

theorem apply_kind (succeeded : operator.apply left right = .ok result) :
    (operator.isComparison = true → result.kind = .bool) ∧
      (operator.isComparison = false → left.kind.common? right.kind = some result.kind) := by
  obtain ⟨operands, found, applied⟩ :=
    exists_operands_of_canApply (canApply_of_apply succeeded)
  rw [succeeded] at applied
  have kind_eq := Operands.evaluate?_kind applied
  constructor
  · intro compares
    rwa [if_pos compares] at kind_eq
  · intro computes
    rw [(Operands.ofValues?_spec found).1, kind_eq, computes]
    rfl

/-- An operator is eligible exactly if it does not fail for want of a meaning. -/
theorem canApply_iff :
    operator.canApply left right = true ↔
      ∀ other leftKind rightKind, operator.apply left right ≠
        .error (.unsupportedOperation other leftKind rightKind) := by
  constructor
  · intro eligible other leftKind rightKind unsupported
    obtain ⟨impossible, _⟩ := (apply_error_iff eligible).mp unsupported
    cases impossible
  · intro supported
    cases eligible : operator.canApply left right with
    | true => rfl
    | false => exact absurd (apply_of_not_canApply eligible) (supported _ _ _)

/-- The check in advance agrees with the application, which fails in divisions by zero only and
gives a value of a kind that is known from the operands. No comparison is left without an answer. -/
theorem eligible_operators_apply (operator : Operator) (left right : Value) :
    (operator.canApply left right = true ↔
      ∀ other leftKind rightKind, operator.apply left right ≠
        .error (.unsupportedOperation other leftKind rightKind)) ∧
    (operator.canApply left right = true → ∀ cause,
      operator.apply left right = .error cause ↔
        cause = .divisionByZero ∧ (operator = .div ∨ operator = .mod) ∧
          left.DividesByZero right) ∧
    (∀ result, operator.apply left right = .ok result →
      (operator.isComparison = true → result.kind = .bool) ∧
        (operator.isComparison = false → left.kind.common? right.kind = some result.kind)) ∧
    ∀ unanswered leftNumber rightNumber,
      operator.applyIntsOr unanswered leftNumber rightNumber =
        operator.applyInts leftNumber rightNumber := by
  refine ⟨canApply_iff, ?_, ?_, ?_⟩
  · intro eligible cause
    exact apply_error_iff eligible
  · intro result succeeded
    exact apply_kind succeeded
  · intro unanswered leftNumber rightNumber
    exact applyIntsOr_eq unanswered operator leftNumber rightNumber

end Operator

end StackLang
