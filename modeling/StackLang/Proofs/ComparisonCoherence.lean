import StackLang.Proofs.OperatorEligibility
import StackLang.Proofs.TextOrder

/-!
# Comparisons that agree with each other

Two values that are compared as integers, as truth values or as texts are compared in a linear order
(`ComparesAs`), so that the six comparisons are six views of one answer (`Coherent`). Two
floating-point numbers are not among them, since one of them may be no number.
-/

namespace StackLang

/-- Whether values of two kinds are compared in a linear order. -/
def Kind.comparable : Kind → Kind → Bool
  | .int, .int | .int, .float | .float, .int | .bool, .int | .int, .bool
  | .string, .string => true
  | _, _ => false

/-- Operands in their common form, the other way round. -/
def Operands.swap : Operands → Operands
  | .ints left right => .ints right left
  | .floats left right => .floats right left
  | .bools left right => .bools right left
  | .strings left right => .strings right left

theorem Operands.of_comparable {left right : Value}
    (comparable : left.kind.comparable right.kind = true) :
    ∃ operands, ofValues? left right = some operands ∧
      ofValues? right left = some operands.swap ∧ operands.kind ≠ .float := by
  cases left <;> cases right <;> cases comparable <;>
    exact ⟨_, rfl, rfl, fun isFloat => nomatch isFloat⟩

namespace Operator

/-- An operator answers that two values stand in its relation. -/
def Holds (operator : Operator) (left right : Value) : Prop :=
  operator.apply left right = .ok (.bool true)

/-- The operator that asks the same question of the swapped operands. -/
def mirrored : Operator → Operator
  | .lt => .gt
  | .gt => .lt
  | .le => .ge
  | .ge => .le
  | other => other

/-- The comparisons of two values agree with each other and with those of the swapped values. -/
structure Coherent (left right : Value) : Prop where
  answered : ∀ operator : Operator, operator.isComparison = true →
    ∃ truth, operator.apply left right = .ok (.bool truth)
  /-- Exactly one of less, equal and greater holds. -/
  exactlyOne : ∃ operator ∈ [lt, eq, gt], ∀ other ∈ [lt, eq, gt],
    other.Holds left right ↔ other = operator
  le_iff : le.Holds left right ↔ lt.Holds left right ∨ eq.Holds left right
  ge_iff : ge.Holds left right ↔ gt.Holds left right ∨ eq.Holds left right
  ne_iff : ne.Holds left right ↔ ¬ eq.Holds left right
  mirrors : ∀ operator : Operator, operator.isComparison = true →
    operator.mirrored.apply right left = operator.apply left right

section Views

variable {α : Type} [BEq α] [LT α] [LE α] [DecidableLT α] [DecidableLE α]
variable {operator : Operator} {left right : Value} {first second : α} {truth : Bool}

/-- The comparisons of two values are those of what stands for them. -/
def ComparesAs (left right : Value) (first second : α) : Prop :=
  ∀ (operator : Operator) (truth : Bool), operator.compare? first second = some truth →
    operator.apply left right = .ok (.bool truth)

theorem isSome_compare? (operator : Operator) (first second : α) :
    (operator.compare? first second).isSome = operator.isComparison := by
  cases operator <;> rfl

theorem exists_compare? (compares : operator.isComparison = true) (first second : α) :
    ∃ truth, operator.compare? first second = some truth := by
  rw [← Option.isSome_iff_exists, isSome_compare?, compares]

theorem ComparesAs.holds_iff (compared : ComparesAs left right first second)
    (compares : operator.isComparison = true) :
    operator.Holds left right ↔ operator.compare? first second = some true := by
  obtain ⟨truth, answer⟩ := exists_compare? compares first second
  rw [Holds, compared operator truth answer, answer]
  simp

theorem compare?_mirrored [LawfulBEq α] (compares : operator.isComparison = true)
    (first second : α) :
    operator.mirrored.compare? second first = operator.compare? first second := by
  cases operator with
  | eq => exact congrArg some BEq.comm
  | ne => exact congrArg some bne_comm
  | lt | le | gt | ge => rfl
  | add | sub | mul | div | mod => cases compares

/-- Comparisons in a linear order are coherent. -/
theorem ComparesAs.coherent [LawfulBEq α] [Std.IsLinearOrder α] [Std.LawfulOrderLT α]
    (compared : ComparesAs left right first second)
    (comparedBack : ComparesAs right left second first) : Coherent left right := by
  have lt_holds : lt.Holds left right ↔ first < second := by
    rw [compared.holds_iff rfl]
    simp [compare?]
  have eq_holds : eq.Holds left right ↔ first = second := by
    rw [compared.holds_iff rfl]
    simp [compare?]
  have gt_holds : gt.Holds left right ↔ second < first := by
    rw [compared.holds_iff rfl]
    simp [compare?]
  constructor
  case answered =>
    intro operator compares
    obtain ⟨truth, answer⟩ := exists_compare? compares first second
    exact ⟨truth, compared operator truth answer⟩
  case exactlyOne =>
    simp only [List.forall_mem_cons, lt_holds, eq_holds, gt_holds]
    rcases Std.lt_trichotomy first second with less | same | greater
    · exact ⟨.lt, by simp, by simp [less, Std.ne_of_lt less, Std.not_gt_of_lt less]⟩
    · exact ⟨.eq, by simp, by simp [same, Std.lt_irrefl]⟩
    · exact ⟨.gt, by simp, by simp [greater, (Std.ne_of_lt greater).symm, Std.not_gt_of_lt greater]⟩
  case le_iff =>
    rw [compared.holds_iff rfl, lt_holds, eq_holds, ← Std.le_iff_lt_or_eq]
    simp [compare?]
  case ge_iff =>
    rw [compared.holds_iff rfl, gt_holds, eq_holds, eq_comm (a := first), ← Std.le_iff_lt_or_eq]
    simp [compare?]
  case ne_iff =>
    rw [compared.holds_iff rfl, eq_holds]
    simp [compare?]
  case mirrors =>
    intro operator compares
    obtain ⟨truth, answer⟩ := exists_compare? compares first second
    rw [compared operator truth answer]
    rw [← compare?_mirrored compares] at answer
    exact comparedBack operator.mirrored truth answer

end Views

section CommonForms

variable {operator : Operator} {left right : Value} {operands : Operands}

/-- A comparison of two values is made in their common form. -/
theorem apply_of_answer {α : Type} [BEq α] [LT α] [LE α] [DecidableLT α] [DecidableLE α]
    {first second : α} {truth : Bool} (answer : operator.compare? first second = some truth)
    (found : Operands.ofValues? left right = some operands)
    (evaluated : operands.evaluate? operator = some (.ok (.bool truth))) :
    operator.apply left right = .ok (.bool truth) := by
  have form : operator.operands? left right = some operands := by
    cases operator with
    | mod => cases answer
    | _ => exact found
  rw [apply_eq, outcome?, form, Option.bind_some, evaluated]
  rfl

theorem comparesAs_of_ints {first second : Int64}
    (found : Operands.ofValues? left right = some (.ints first second)) :
    ComparesAs left right first second := by
  intro operator truth answer
  exact apply_of_answer answer found (by simp [Operands.evaluate?, applyInts, answer])

/-- Truth values compare as the integers one and zero. -/
theorem comparesAs_of_bools {first second : Bool}
    (found : Operands.ofValues? left right = some (.bools first second)) :
    ComparesAs left right (if first then 1 else 0 : Int64) (if second then 1 else 0) := by
  intro operator truth answer
  exact apply_of_answer answer found (by simp [Operands.evaluate?, applyBools, applyInts, answer])

theorem comparesAs_of_strings {first second : String}
    (found : Operands.ofValues? left right = some (.strings first second)) :
    ComparesAs left right first second := by
  intro operator truth answer
  exact apply_of_answer answer found (by simp [Operands.evaluate?, applyStrings?, answer])

/-- Values that are compared in a linear order are compared coherently. -/
theorem coherent_of_comparable (comparable : left.kind.comparable right.kind = true) :
    Coherent left right := by
  obtain ⟨operands, found, foundBack, notFloats⟩ := Operands.of_comparable comparable
  cases operands with
  | ints first second =>
    exact (comparesAs_of_ints found).coherent (comparesAs_of_ints foundBack)
  | floats first second => exact absurd rfl notFloats
  | bools first second =>
    exact (comparesAs_of_bools found).coherent (comparesAs_of_bools foundBack)
  | strings first second =>
    exact (comparesAs_of_strings found).coherent (comparesAs_of_strings foundBack)

end CommonForms

/-- One text is less than another. -/
theorem lt_holds_iff {left right : String} :
    lt.Holds (.string left) (.string right) ↔ left < right := by
  rw [(comparesAs_of_strings rfl).holds_iff rfl]
  simp [compare?]

/-- Comparisons that are made in a linear order agree with each other in both orders of the
operands. Texts are in the order of their bytes and of their code points, and a text joined to the
front of both does not change the answer. -/
theorem comparisons_are_coherent :
    (∀ left right : Value, left.kind.comparable right.kind = true → Coherent left right) ∧
    (∀ left right : String, lt.Holds (.string left) (.string right) ↔
      Text.bytes left < Text.bytes right) ∧
    (∀ left right : String, lt.Holds (.string left) (.string right) ↔
      Text.codePoints left < Text.codePoints right) ∧
    (∀ first second third : String, lt.Holds (.string first) (.string second) →
      lt.Holds (.string second) (.string third) → lt.Holds (.string first) (.string third)) ∧
    ∀ beginning left right : String,
      (do
        let longerLeft ← add.apply (.string beginning) (.string left)
        let longerRight ← add.apply (.string beginning) (.string right)
        lt.apply longerLeft longerRight) = lt.apply (.string left) (.string right) := by
  refine ⟨fun left right => coherent_of_comparable, ?_, ?_, ?_, ?_⟩
  · intro left right
    rw [lt_holds_iff, Text.bytes_lt_iff]
  · intro left right
    rw [lt_holds_iff, Text.codePoints_lt_iff]
  · intro first second third
    simp only [lt_holds_iff]
    exact String.lt_trans
  · intro beginning left right
    change Except.ok (Value.bool (decide (beginning ++ left < beginning ++ right))) =
      Except.ok (Value.bool (decide (left < right)))
    rw [decide_eq_decide.mpr (Text.append_lt_append_iff beginning)]

/-- What is not a number counts as zero beside an integer, and letters of all alphabets are in the
order of their code points. -/
theorem mixed_comparisons_are_coherent :
    (Value.int 0).kind.comparable (Value.float (0.0 / 0.0)).kind = true ∧
    Coherent (.int 0) (.float (0.0 / 0.0)) ∧
    lt.Holds (.string "z") (.string "é") ∧ lt.Holds (.string "é") (.string "😀") ∧
    lt.Holds (.string "z") (.string "😀") := by
  have latin : lt.Holds (.string "z") (.string "é") := lt_holds_iff.mpr (by decide)
  have astral : lt.Holds (.string "é") (.string "😀") := lt_holds_iff.mpr (by decide)
  exact ⟨rfl, comparisons_are_coherent.1 _ _ rfl, latin, astral,
    comparisons_are_coherent.2.2.2.1 _ _ _ latin astral⟩

end Operator

end StackLang
