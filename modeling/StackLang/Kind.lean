import StackLang.Text.LetterCase

/-!
# Kinds of values

The tag every value carries. Five of the six kinds have a name that a program can write; letter case
does not matter in it.
-/

namespace StackLang

/-- The kind of a value. -/
inductive Kind where
  | none
  | int
  | float
  | string
  | bool
  | struct
deriving DecidableEq, Repr, Inhabited

namespace Kind

/-- The name of a kind in messages. -/
def name : Kind → String
  | .none => "None"
  | .int => "Int"
  | .float => "Float"
  | .string => "String"
  | .bool => "Bool"
  | .struct => "Struct"

/-- The kinds that a program can name. -/
def nameable : List Kind :=
  [.int, .float, .string, .bool, .struct]

/-- The kind with the given name, in any letter case. -/
def ofName? (text : String) : Option Kind :=
  nameable.find? fun kind => Text.sameIgnoringCase kind.name text

end Kind

end StackLang
