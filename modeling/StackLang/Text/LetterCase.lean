/-!
# Letter case

Names that differ in the case of ASCII letters only. Other letters are never folded.
-/

namespace StackLang.Text

/-- Whether two texts differ at most in the case of ASCII letters. -/
def sameIgnoringCase (left right : String) : Bool :=
  left.toList.map Char.toLower == right.toList.map Char.toLower

end StackLang.Text
