import StackLang.Machine.Scopes

/-!
# The call stack
-/

namespace StackLang

/-- An active call. -/
structure Frame where
  function : String
  /-- The table that holds the variables of the call. -/
  scope : ScopeId
  /-- The address to go on at once the call has returned. -/
  returnAddress : Nat
deriving DecidableEq, Repr

/-- The active calls, the innermost first. -/
abbrev CallStack := List Frame

namespace CallStack

/-- The number of active calls. -/
def depth (calls : CallStack) : Nat :=
  calls.length

/-- The innermost call. -/
def current? (calls : CallStack) : Option Frame :=
  calls.head?

/-- The names of the called functions, the outermost first. -/
def backtrace (calls : CallStack) : List String :=
  (calls.map Frame.function).reverse

end CallStack

end StackLang
