import StackLang.Code.CompiledProgram
import StackLang.Event
import StackLang.Lowering.Stmt

/-!
# Layout of a program

The code of all functions is placed one after the other in program order, that of a function
declared twice included, and the code of the global statements behind it. The function table is
filled in the same order, so a name leads to its last declaration. Placing stops at the first
function that is refused; what was reported until then stays reported.
-/

namespace StackLang

/-- The code placed so far. -/
structure Layout where
  code : Bytecode := #[]
  functions : FunctionTable := {}
  events : Array Event := #[]

namespace Layout

/-- Place the code of a function behind what is there. -/
def place (layout : Layout) (function : FunctionDecl) (body : Bytecode) : Layout where
  code := layout.code ++ body
  functions := layout.functions.define function layout.code.size
  events := layout.events.push (.functionPlaced function.name layout.code.size body.size)

/-- Place functions until one is refused. -/
def placeAll (declared : Bindings FunctionDecl) (types : StructTypes) :
    List FunctionDecl → Layout → Layout × Except CompileError Unit
  | [], layout => (layout, .ok ())
  | function :: rest, layout =>
    match function.compile declared types with
    | .ok body => placeAll declared types rest (layout.place function body)
    | .error cause => (layout, .error cause)

/-- Place the code of the global statements and finish the program. -/
def finish (layout : Layout) (body : Bytecode) : CompiledProgram where
  code := layout.code ++ body
  functions := layout.functions
  initAddress := layout.code.size

end Layout

/-- The end of a compilation and what it reported. -/
structure Compilation where
  outcome : Except CompileError CompiledProgram
  events : Array Event

namespace Program

/-- Compile a program and keep the events. -/
def compilation (program : Program) : Compilation :=
  match StructTypes.ofProgram program with
  | .error cause => ⟨.error cause, #[]⟩
  | .ok types =>
    let declared := program.functions
    match Layout.placeAll declared types program.functionDecls {} with
    | (layout, .error cause) => ⟨.error cause, layout.events⟩
    | (layout, .ok ()) =>
      match (BodyContext.forGlobals declared types).compileBody program.globalStatements with
      | .error cause => ⟨.error cause, layout.events⟩
      | .ok body =>
        let compiled := layout.finish body
        ⟨.ok compiled, layout.events.push (.programCompiled compiled.functions.size
          compiled.code.size compiled.initAddress)⟩

/-- Compile a program. -/
def compile (program : Program) : Except CompileError CompiledProgram :=
  program.compilation.outcome

end Program

end StackLang
