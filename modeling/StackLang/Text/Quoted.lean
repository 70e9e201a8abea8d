import StackLang.Text.Extending
import StackLang.Text.Unprintable

/-!
# Quoted text

Text between double quotes on one line: quotes, backslashes and every character that would not show
as itself are escaped.
-/

namespace StackLang.Text

/-- How one character is written between double quotes. -/
def escape (character : Char) : List Char :=
  match character with
  | '"' => ['\\', '"']
  | '\\' => ['\\', '\\']
  | '\t' => ['\\', 't']
  | '\r' => ['\\', 'r']
  | '\n' => ['\\', 'n']
  | '\x00' => ['\\', '0']
  | _ =>
    if isExtending character || isUnprintable character then
      ['\\', 'u', '\x7b'] ++ Nat.toDigits 16 character.toNat ++ ['\x7d']
    else [character]

/-- The text between double quotes. -/
def quoted (text : String) : String :=
  "\"" ++ String.ofList (text.toList.flatMap escape) ++ "\""

example : quoted "it's\t\"\x7f\"" = "\"it's\\t\\\"\\u\x7b7f\x7d\\\"\"" := by decide +kernel

/-- A filler is escaped and a half-width voicing mark is not. -/
example : quoted "\u3164\uFF76\uFF9E" = "\"\\u\x7b3164\x7d\uFF76\uFF9E\"" := by decide +kernel

/-- Quoted texts between brackets, with commas between them. -/
def quotedList (texts : List String) : String :=
  "[" ++ ", ".intercalate (texts.map quoted) ++ "]"

end StackLang.Text
