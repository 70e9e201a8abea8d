import StackLang.Value.Basic

/-!
# The operand stack

A stack of values of limited height, shared by all active calls. The height is kept beside the
values, so that comparing it with the limit does not depend on how many there are.
-/

namespace StackLang

/-- A stack of values. -/
structure OperandStack where
  /-- The greatest number of values that the stack may hold. -/
  limit : Nat
  /-- The values, the top first. -/
  values : List Value
  /-- The number of values. -/
  size : Nat
  size_eq : size = values.length

namespace OperandStack

theorem ext {one two : OperandStack} (limit : one.limit = two.limit)
    (values : one.values = two.values) : one = two := by
  obtain ⟨_, _, _, oneSize⟩ := one
  obtain ⟨_, _, _, twoSize⟩ := two
  cases limit
  cases values
  cases oneSize
  cases twoSize
  rfl

/-- The stack without values. -/
def empty (limit : Nat) : OperandStack where
  limit := limit
  values := []
  size := 0
  size_eq := rfl

/-- Whether there is no value. -/
def isEmpty (stack : OperandStack) : Bool :=
  stack.values.isEmpty

/-- The top value. -/
def top? (stack : OperandStack) : Option Value :=
  stack.values.head?

/-- The stack with a value on top of it, whatever its limit. -/
def cons (value : Value) (stack : OperandStack) : OperandStack where
  limit := stack.limit
  values := value :: stack.values
  size := stack.size + 1
  size_eq := by simp [stack.size_eq]

/-- Put a value on top. -/
def push (stack : OperandStack) (value : Value) : Except RunError OperandStack :=
  if stack.limit ≤ stack.size then .error (.stackOverflow stack.limit)
  else .ok (stack.cons value)

/-- Take the top value. -/
def pop : OperandStack → Except RunError (Value × OperandStack)
  | ⟨_, [], _, _⟩ => .error .stackUnderflow
  | ⟨limit, value :: rest, size, size_eq⟩ =>
    .ok (value, ⟨limit, rest, size - 1, by simp [size_eq]⟩)

/-- Drop all values. -/
def clear (stack : OperandStack) : OperandStack :=
  empty stack.limit

@[simp] theorem limit_cons (value : Value) (stack : OperandStack) :
    (stack.cons value).limit = stack.limit := rfl

@[simp] theorem values_cons (value : Value) (stack : OperandStack) :
    (stack.cons value).values = value :: stack.values := rfl

@[simp] theorem size_cons (value : Value) (stack : OperandStack) :
    (stack.cons value).size = stack.size + 1 := rfl

theorem push_eq_ok_iff {stack next : OperandStack} {value : Value} :
    stack.push value = .ok next ↔ stack.size < stack.limit ∧ next = stack.cons value := by
  unfold push
  split
  · next full => simp [Nat.not_lt.mpr full]
  · next room => simp [Nat.not_le.mp room, eq_comm]

theorem pop_eq_ok_iff {stack next : OperandStack} {value : Value} :
    stack.pop = .ok (value, next) ↔ stack = next.cons value := by
  obtain ⟨limit, values, size, size_eq⟩ := stack
  cases values with
  | nil =>
    simp only [pop, reduceCtorEq, false_iff]
    intro same
    cases congrArg OperandStack.values same
  | cons top rest =>
    simp only [pop, Except.ok.injEq, Prod.mk.injEq]
    constructor
    · rintro ⟨rfl, rfl⟩
      exact ext rfl rfl
    · intro same
      have limits := congrArg OperandStack.limit same
      obtain ⟨rfl, rfl⟩ := List.cons.inj (congrArg OperandStack.values same)
      exact ⟨rfl, ext limits rfl⟩

end OperandStack

end StackLang
