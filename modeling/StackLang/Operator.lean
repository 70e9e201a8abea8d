/-!
# Operators on values

The binary operators that have a meaning on values: five that compute and six that compare.
-/

namespace StackLang

/-- A binary operator on values. -/
inductive Operator where
  | add
  | sub
  | mul
  | div
  | mod
  | eq
  | ne
  | lt
  | le
  | gt
  | ge
deriving DecidableEq, Repr, Inhabited

namespace Operator

/-- Every operator, the computing ones first. -/
def all : List Operator :=
  [.add, .sub, .mul, .div, .mod, .eq, .ne, .lt, .le, .gt, .ge]

/-- How an operator is written. -/
def symbol : Operator → String
  | .add => "+"
  | .sub => "-"
  | .mul => "*"
  | .div => "/"
  | .mod => "%"
  | .eq => "=="
  | .ne => "!="
  | .lt => "<"
  | .le => "<="
  | .gt => ">"
  | .ge => ">="

/-- Whether an operator compares, so that its result is a truth value. -/
def isComparison : Operator → Bool
  | .add | .sub | .mul | .div | .mod => false
  | .eq | .ne | .lt | .le | .gt | .ge => true

/-- The operator written with the given symbol. -/
def ofSymbol? (text : String) : Option Operator :=
  all.find? fun operator => operator.symbol == text

theorem mem_all (operator : Operator) : operator ∈ all := by
  cases operator <;> decide

end Operator

end StackLang
