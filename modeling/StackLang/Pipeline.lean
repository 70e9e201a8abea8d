import StackLang.Layout
import StackLang.Machine.Execution

/-!
# From a program to its value

Compile a program and run it.
-/

namespace StackLang

/-- Why a program has no value: it was refused, or its run was stopped. -/
inductive Failure where
  | compile (cause : CompileError)
  | run (cause : RunError)
deriving DecidableEq, Repr

namespace Failure

/-- The text that reports a failure. -/
def message : Failure → String
  | .compile cause => "compile error: " ++ cause.message
  | .run cause => "runtime error: " ++ cause.message

end Failure

/-- Compile a program and run it. There is no answer if the run takes more than `fuel` steps. -/
def Program.evaluate (program : Program) (settings : Settings) (fuel : Nat) :
    Option (Except Failure (Option Value)) :=
  match program.compile with
  | .error cause => some (.error (.compile cause))
  | .ok compiled =>
    match Machine.execute compiled settings fuel (.initial settings) with
    | none => none
    | some ⟨.ok value, _⟩ => some (.ok value)
    | some ⟨.error cause, _⟩ => some (.error (.run cause))

end StackLang
