import StackLang.Decimal.Style
import StackLang.Text.Quoted
import StackLang.Value.Basic

/-!
# The text of values

How values are shown in listings, outlines and events. Texts are quoted. The fields of a struct are
shown in the order of their names, which are shown as they are.
-/

namespace StackLang

namespace Value

/-- Numbers from `1e-4` up to below `1e16` are written positionally. -/
def floatStyle : DecimalStyle where
  leastPositional := -4
  greatestPositional := 15
  exponentMark := "e"
  infinity := "inf"
  notANumber := "NaN"

/-- The text of a truth value. -/
def truthText (truth : Bool) : String :=
  if truth then "true" else "false"

/-- The text of an integer. -/
def intText (number : Int64) : String :=
  toString number.toInt

/-- The text of a floating-point number. -/
def floatText (number : Float) : String :=
  floatStyle.write (BinaryFloat.ofFloat number)

/-- The text of a struct, from the texts of its fields. -/
def recordText (shown : Fields String) : String :=
  let parts := shown.names.map fun name => name ++ ": " ++ (shown.find? name).getD ""
  "\x7b" ++ ", ".intercalate parts ++ "\x7d"

mutual

/-- The text of a value. -/
def text : Value → String
  | .none => "none"
  | .int number => intText number
  | .float number => floatText number
  | .string text => Text.quoted text
  | .bool truth => truthText truth
  | .struct ⟨slots⟩ => recordText ⟨slotTexts slots⟩

/-- The texts of fields. -/
def slotTexts : {names : List String} → Slots Value names → Slots String names
  | _, .nil => .nil
  | _, .cons name fresh value rest => .cons name fresh (text value) (slotTexts rest)

end

theorem slotTexts_eq_map {names : List String} (slots : Slots Value names) :
    slotTexts slots = slots.map text := by
  induction slots with
  | nil => rfl
  | cons name fresh value rest inductionHypothesis =>
    rw [slotTexts, inductionHypothesis, Slots.map]

/-- The text of a struct is written from the texts of its fields. -/
theorem text_struct (fields : Fields Value) :
    text (.struct fields) = recordText (fields.map text) := by
  rw [text, slotTexts_eq_map]
  rfl

example : floatStyle.write (.finite false 7205759403792794 (-56)) = "0.1" := by decide +kernel
example : floatStyle.write (.finite false 6755399441055744 (-52)) = "1.5" := by decide +kernel
example : floatStyle.write (.finite true 0 (-1074)) = "-0.0" := by decide +kernel
example : floatStyle.write (.finite false 1 (-1074)) = "5e-324" := by decide +kernel
example : floatStyle.write (.finite true 5000000000000000 1) = "-1e16" := by decide +kernel
example : floatStyle.write (.finite false 9999999999999998 0) = "9999999999999998.0" := by
  decide +kernel

end Value

/-- The text of a struct. -/
def Record.text (record : Record) : String :=
  (Value.struct record).text

end StackLang
