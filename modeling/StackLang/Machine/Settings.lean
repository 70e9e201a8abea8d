/-!
# Settings of the machine

How deep calls may nest, how high the operand stack may grow, and whether every instruction is
reported. The limits can only stop a run earlier; they have no other effect on it.
-/

namespace StackLang

/-- The limits of a run and what it reports. -/
structure Settings where
  /-- The number of active frames at which a further call is refused. -/
  maxCallDepth : Nat := 256
  /-- The greatest number of values on the operand stack. -/
  maxStackSize : Nat := 4096
  /-- Whether every instruction is reported. -/
  traceInstructions : Bool := false
deriving DecidableEq, Repr

/-- Whether no setting differs from its default. -/
def Settings.isDefault (settings : Settings) : Bool :=
  settings == {}

/-- The function that a run starts in once the global statements have run. -/
def entryPoint : String := "main"

end StackLang
