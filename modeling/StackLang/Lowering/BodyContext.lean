import StackLang.Code.Emitter
import StackLang.StructTypes

/-!
# The surroundings of a body

What the code of a function body, or of the global statements, depends on besides its statements:
the functions and types of the program and the function it belongs to.
-/

namespace StackLang

/-- What the code of a body depends on. -/
structure BodyContext where
  /-- The last declaration of each function of the program. -/
  functions : Bindings FunctionDecl
  types : StructTypes
  /-- The function the body belongs to, if it is not the body of the global statements. -/
  enclosing : Option FunctionDecl

namespace BodyContext

/-- The surroundings of the global statements. -/
def forGlobals (functions : Bindings FunctionDecl) (types : StructTypes) : BodyContext :=
  ⟨functions, types, none⟩

/-- The surroundings of a function body. -/
def forFunction (functions : Bindings FunctionDecl) (types : StructTypes)
    (function : FunctionDecl) : BodyContext :=
  ⟨functions, types, some function⟩

/-- The name that the tags of a body begin with. -/
def owner (context : BodyContext) : String :=
  context.enclosing.elim globalOwner FunctionDecl.name

/-- The tag of instructions that come from a construct of the body. -/
def tag (context : BodyContext) (construct : String) : String :=
  context.owner ++ ":" ++ construct

/-- Whether a call of a function leaves a value; a function that is not declared is taken to. -/
def callHasValue (context : BodyContext) (callee : String) : Bool :=
  (context.functions.find? callee).all FunctionDecl.returnsValue

/-- Accept a call whose value is needed. -/
def requireValue (context : BodyContext) (callee : String) : Except CompileError Unit :=
  if context.callHasValue callee then .ok () else .error (.voidValue callee)

/-- Accept a number of arguments. Any number will do for a function that is not declared. -/
def requireArity (context : BodyContext) (callee : String) (found : Nat) :
    Except CompileError Unit :=
  match context.functions.find? callee with
  | none => .ok ()
  | some declaration =>
    if declaration.arity = found then .ok ()
    else .error (.arityMismatch callee declaration.arity found)

end BodyContext

end StackLang
