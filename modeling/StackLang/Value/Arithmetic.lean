import StackLang.Decimal.BinaryFloat
import StackLang.Value.Basic

/-!
# Operators applied to values

Two operands are first brought to a common form, and the operator is applied in that form:

* two integers are integers, and two floating-point numbers are such numbers;
* an integer and a floating-point number are integers, the fraction of the latter cut off;
* a truth value and an integer are truth values, any integer but zero counting as true;
* two texts are texts.

No other pair has a common form. The remainder is taken of two integers only, and of texts there
are only the concatenation and the comparisons.
-/

namespace StackLang

/-- Two operands in their common form. -/
inductive Operands where
  | ints (left right : Int64)
  | floats (left right : Float)
  | bools (left right : Bool)
  | strings (left right : String)

namespace Operands

/-- The common form of two values. -/
def ofValues? : Value → Value → Option Operands
  | .int left, .int right => some (.ints left right)
  | .float left, .float right => some (.floats left right)
  | .int left, .float right => some (.ints left (BinaryFloat.ofFloat right).truncate)
  | .float left, .int right => some (.ints (BinaryFloat.ofFloat left).truncate right)
  | .bool left, .int right => some (.bools left (right != 0))
  | .int left, .bool right => some (.bools (left != 0) right)
  | .string left, .string right => some (.strings left right)
  | _, _ => none

end Operands

namespace Operator

/-- The answer of a comparison. Texts compare by their code points; a floating-point number that is
not a number is unequal to and unordered with every number. -/
def compare? {α : Type} [BEq α] [LT α] [LE α] [DecidableLT α] [DecidableLE α]
    (operator : Operator) (left right : α) : Option Bool :=
  match operator with
  | .eq => some (left == right)
  | .ne => some (left != right)
  | .lt => some (decide (left < right))
  | .le => some (decide (left ≤ right))
  | .gt => some (decide (left > right))
  | .ge => some (decide (left ≥ right))
  | .add | .sub | .mul | .div | .mod => none

/-- Apply an operator to integers. Results that do not fit wrap around; quotients are cut towards
zero. -/
def applyInts (operator : Operator) (left right : Int64) : Except RunError Value :=
  match operator.compare? left right with
  | some truth => .ok (.bool truth)
  | none =>
    match operator with
    | .add => .ok (.int (left + right))
    | .sub => .ok (.int (left - right))
    | .mul => .ok (.int (left * right))
    | .div => if right = 0 then .error .divisionByZero else .ok (.int (left / right))
    | _ => if right = 0 then .error .divisionByZero else .ok (.int (left % right))

/-- Apply an operator to floating-point numbers, which have no remainder. -/
def applyFloats? (operator : Operator) (left right : Float) : Option Value :=
  match operator.compare? left right with
  | some truth => some (.bool truth)
  | none =>
    match operator with
    | .add => some (.float (left + right))
    | .sub => some (.float (left - right))
    | .mul => some (.float (left * right))
    | .div => some (.float (left / right))
    | _ => none

/-- Apply an operator to truth values as to the integers one and zero; a number that results is true
unless it is zero. -/
def applyBools (operator : Operator) (left right : Bool) : Except RunError Value :=
  match operator.applyInts (if left then 1 else 0) (if right then 1 else 0) with
  | .ok (.int number) => .ok (.bool (number != 0))
  | other => other

/-- Apply an operator to texts. -/
def applyStrings? (operator : Operator) (left right : String) : Option Value :=
  match operator.compare? left right with
  | some truth => some (.bool truth)
  | none =>
    match operator with
    | .add => some (.string (left ++ right))
    | _ => none

/-- Apply an operator to two values. -/
def apply (operator : Operator) (left right : Value) : Except RunError Value :=
  let unsupported := RunError.unsupportedOperation operator left.kind right.kind
  match operator, left, right with
  | .mod, .int leftNumber, .int rightNumber => applyInts .mod leftNumber rightNumber
  | .mod, _, _ => .error unsupported
  | _, _, _ =>
    match Operands.ofValues? left right with
    | none => .error unsupported
    | some (.ints leftNumber rightNumber) => operator.applyInts leftNumber rightNumber
    | some (.floats leftNumber rightNumber) =>
      (operator.applyFloats? leftNumber rightNumber).elim (.error unsupported) .ok
    | some (.bools leftTruth rightTruth) => operator.applyBools leftTruth rightTruth
    | some (.strings leftText rightText) =>
      (operator.applyStrings? leftText rightText).elim (.error unsupported) .ok

/-- Whether an operator has a meaning on two values of their kinds, which a division by zero does
not change. -/
def canApply (operator : Operator) (left right : Value) : Bool :=
  match operator, left, right with
  | .mod, .int _, .int _ => true
  | .mod, _, _ => false
  | _, _, _ =>
    match Operands.ofValues? left right with
    | none => false
    | some (.strings _ _) => operator == .add || operator.isComparison
    | some _ => true

end Operator

end StackLang
