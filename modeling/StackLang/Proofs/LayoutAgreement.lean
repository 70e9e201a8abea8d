import Mathlib.Algebra.GroupWithZero.Nat
import Mathlib.Data.List.Forall2
import StackLang.Proofs.CallIsolation
import StackLang.Proofs.InstructionOrigins
import StackLang.Proofs.MemberAssignment

/-!
# Declarations, function table and code agree

A call is checked against the declarations of the program and made with the function table of the
code. `Program.LaidOut` says what the code of a program is made of, `FunctionEntry.Leads` where an
entry of the table leads to, and `CallSite.Fits` what was checked of a call. An instruction that
calls a function comes from a call in the program (`Program.Segmented.exists_callSite`), so what was
checked is true of the code that the machine goes to.
-/

namespace StackLang

open Segment

/-- What the code of a program is made of: a body for each function declaration in program order,
whether or not a later one has its name, and the code of the global statements. -/
structure Program.LaidOut (program : Program) (types : StructTypes) (compiled : CompiledProgram)
    (bodies : List Bytecode) (initialiser : Bytecode) : Prop where
  resolved : StructTypes.ofProgram program = .ok types
  functions : List.Forall₂
    (fun function body => function.compile program.functions types = .ok body)
    program.functionDecls bodies
  globals : (BodyContext.forGlobals program.functions types).compileBody
    program.globalStatements = .ok initialiser
  code : compiled.code.toList = bodies.flatMap Array.toList ++ initialiser.toList
  initAddress : compiled.initAddress = (bodies.map Array.size).sum

/-- An entry of the table holds the last declaration of its name, and the code of this declaration
stands at its address, with a return at the end. -/
structure FunctionEntry.Leads (program : Program) (types : StructTypes)
    (compiled : CompiledProgram) (name : String) (entry : FunctionEntry) (body : Bytecode) :
    Prop where
  last : ∃ front back, program.functionDecls = front ++ entry.declaration :: back ∧
    entry.declaration.name = name ∧ ∀ later ∈ back, later.name ≠ name
  lowered : entry.declaration.compile program.functions types = .ok body
  standing : compiled.code.extract entry.address (entry.address + body.size) = body
  ends : ∃ tag, body.back? = some (.bare .returnVoid tag)

/-- A statement calls a function, for its value or only for its effect. -/
inductive Stmt.Calls (callee : String) (arguments : List Expr) : Bool → Stmt → Prop where
  | value {statement : Stmt} {operand : Expr} (member : operand ∈ statement.operands)
      (inside : Expr.Part (.call callee arguments) operand) :
      Calls callee arguments true statement
  | effect : Calls callee arguments false (.expression (.call callee arguments))

/-- A call in a statement. -/
structure CallSite where
  /-- The function around the statement, if it is not one of the global statements. -/
  enclosing : Option FunctionDecl
  statement : Stmt
  callee : String
  arguments : List Expr
  needsValue : Bool

namespace CallSite

/-- The call stands in the program. -/
structure In (program : Program) (site : CallSite) : Prop where
  included : program.Includes site.enclosing site.statement
  calls : site.statement.Calls site.callee site.arguments site.needsValue

/-- The code of the statement with the call. -/
def code (program : Program) (types : StructTypes) (site : CallSite) : List Instruction :=
  site.statement.code ⟨program.functions, types, site.enclosing⟩

/-- The call is one of the given function: it has as many arguments as the function takes, the
function has a value if one is needed, and a value that is not needed is dropped if there is one. -/
structure Fits (program : Program) (types : StructTypes) (site : CallSite)
    (function : FunctionDecl) : Prop where
  arity : function.arity = site.arguments.length
  value : site.needsValue = true → function.returnsValue = true
  dropped : BodyContext.callHasValue ⟨program.functions, types, site.enclosing⟩ site.callee =
    function.returnsValue

end CallSite

section Layout

variable {program : Program} {types : StructTypes} {compiled : CompiledProgram}
  {segments : List Segment}

theorem Segment.forall₂_code {functions : List FunctionDecl} {declared : Bindings FunctionDecl}
    (owners : segments.map Segment.owner = functions.map some)
    (compiled : ∀ segment ∈ segments, ∀ function, segment.owner = some function →
      function.compile declared types = .ok segment.code) :
    List.Forall₂ (fun function body => function.compile declared types = .ok body) functions
      (segments.map Segment.code) := by
  induction functions generalizing segments with
  | nil =>
    cases List.map_eq_nil_iff.mp owners
    exact .nil
  | cons function rest inductionHypothesis =>
    obtain ⟨first, others, rfl, owner, otherOwners⟩ := List.map_eq_cons_iff.mp owners
    obtain ⟨firstCompiled, othersCompiled⟩ := List.forall_mem_cons.mp compiled
    exact .cons (firstCompiled function owner) (inductionHypothesis otherOwners othersCompiled)

theorem Segment.length_codes (segments : List Segment) :
    (codes segments).length = ((segments.map Segment.code).map Array.size).sum := by
  simp [codes, List.length_flatMap, Function.comp_def]

theorem Program.Segmented.laidOut (segmented : program.Segmented types compiled segments) :
    ∃ bodies initialiser, program.LaidOut types compiled bodies initialiser := by
  obtain ⟨front, last, rfl, unowned, started, _⟩ := segmented.initialiser
  have owners : front.map Segment.owner = program.functionDecls.map some := by
    have owners := segmented.owners
    rw [List.map_append] at owners
    exact List.append_inj_left' owners rfl
  refine ⟨front.map Segment.code, last.code, segmented.resolved, ?_, ?_, ?_, ?_⟩
  · apply Segment.forall₂_code owners
    exact fun segment member => segmented.functions segment (List.mem_append_left _ member)
  · exact segmented.globals last (by simp) unowned
  · rw [segmented.whole, codes_append, codes_singleton, codes, List.flatMap_map]
  · rw [← started, segmented.adjoin.start_eq, Segment.length_codes]

theorem Bytecode.Holds.extract_eq {code body : Bytecode} {address : Nat}
    (holds : code.Holds address body.toList) (inside : address + body.size ≤ code.size) :
    code.extract address (address + body.size) = body := by
  apply Array.ext_getElem?
  intro index
  rw [Array.getElem?_extract]
  split
  · next within =>
    have bound : index < body.size := by omega
    have present := List.getElem?_eq_getElem (Array.length_toList ▸ bound)
    rw [holds index _ present, ← Array.getElem?_toList, present]
  · next beyond =>
    have bound : body.size ≤ index := by omega
    rw [Array.getElem?_eq_none bound]

/-- Of the function declarations with one name, the last one is found. -/
theorem Program.last_of_function? {name : String} {function : FunctionDecl}
    (declared : program.function? name = some function) :
    ∃ front back, program.functionDecls = front ++ function :: back ∧ function.name = name ∧
      ∀ later ∈ back, later.name ≠ name := by
  rw [Program.function?, Program.functions, Bindings.find?_ofList_map,
    List.find?_eq_some_iff_append] at declared
  obtain ⟨named, after, before, parts, others⟩ := declared
  refine ⟨before.reverse, after.reverse, ?_, by simpa using named, ?_⟩
  · rw [List.reverse_eq_iff] at parts
    simpa using parts
  · intro later member
    simpa using others later (List.mem_reverse.mp member)

theorem Program.Segmented.leads (segmented : program.Segmented types compiled segments)
    {name : String} {entry : FunctionEntry}
    (found : compiled.functions.find? name = some entry)
    (declared : program.function? name = some entry.declaration) :
    ∃ body, entry.Leads program types compiled name body := by
  obtain ⟨segment, lastOf, owner, started⟩ := segmented.entries name entry found
  have member := lastOf.member
  have bodyCompiled := segmented.functions segment member entry.declaration owner
  obtain ⟨_, bodyCode⟩ := FunctionDecl.compile_ok bodyCompiled
  refine ⟨segment.code, Program.last_of_function? declared, bodyCompiled, ?_, ?_⟩
  · rw [← started]
    exact (segmented.holds member).extract_eq (segmented.stop_le member)
  · rw [← Array.getLast?_toList, bodyCode, BodyContext.bodyCode, List.getLast?_concat]
    exact ⟨_, rfl⟩

end Layout

section Origins

variable {program : Program} {types : StructTypes} {compiled : CompiledProgram}
  {segments : List Segment} {context : BodyContext} {statement : Stmt} {instruction : Instruction}

theorem Expr.exists_of_mem_codeAll {exprs : List Expr} {tag : String}
    (member : instruction ∈ codeAll tag exprs) :
    ∃ expr ∈ exprs, instruction ∈ expr.code tag := by
  induction exprs with
  | nil => cases member
  | cons first rest inductionHypothesis =>
    rcases List.mem_append.mp member with here | later
    · exact ⟨first, List.mem_cons_self, here⟩
    · obtain ⟨expr, among, inside⟩ := inductionHypothesis later
      exact ⟨expr, List.mem_cons_of_mem _ among, inside⟩

/-- An instruction that calls a function, in the code of an expression, comes from a call in it. -/
theorem Expr.exists_call {expr : Expr} {tag : String} (member : instruction ∈ expr.code tag)
    (calling : instruction.opcode = .callFunc) :
    ∃ callee arguments, Part (.call callee arguments) expr ∧
      instruction.operand = .string callee := by
  induction expr using Expr.induction with
  | literal value =>
    cases List.mem_singleton.mp member
    cases calling
  | identifier name =>
    cases List.mem_singleton.mp member
    cases calling
  | binary operator left right leftHypothesis rightHypothesis =>
    have inOperand : instruction ∈ left.code tag ∨ instruction ∈ right.code tag := by
      cases operator with
      | evaluated operator =>
        rcases List.mem_append.mp member with inOperands | here
        · exact List.mem_append.mp inOperands
        · cases List.mem_singleton.mp here
          cases calling
      | _ => exact List.mem_append.mp member
    rcases inOperand with inLeft | inRight
    · obtain ⟨callee, arguments, part, operand⟩ := leftHypothesis inLeft
      exact ⟨callee, arguments, .left operator right part, operand⟩
    · obtain ⟨callee, arguments, part, operand⟩ := rightHypothesis inRight
      exact ⟨callee, arguments, .right operator left part, operand⟩
  | call callee arguments argumentHypothesis =>
    rcases List.mem_append.mp member with inArguments | here
    · obtain ⟨argument, among, inArgument⟩ := exists_of_mem_codeAll inArguments
      obtain ⟨inner, others, part, operand⟩ := argumentHypothesis argument among inArgument
      exact ⟨inner, others, .argument callee among part, operand⟩
    · cases List.mem_singleton.mp here
      exact ⟨callee, arguments, .self _, rfl⟩
  | member object name objectHypothesis =>
    rcases List.mem_append.mp member with inObject | here
    · obtain ⟨callee, arguments, part, operand⟩ := objectHypothesis inObject
      exact ⟨callee, arguments, .object name part, operand⟩
    · cases List.mem_singleton.mp here
      cases calling

namespace Stmt

theorem opcode_storePath (root tag : String) (members : List String) :
    ∀ instruction ∈ Instruction.storePath root tag members, instruction.opcode ≠ .callFunc := by
  induction members with
  | nil => simp [Instruction.storePath, Instruction.named]
  | cons name outer inductionHypothesis =>
    refine List.forall_mem_append.mpr ⟨?_, List.forall_mem_cons.mpr ⟨?_, inductionHypothesis⟩⟩
    · simp [Instruction.loadPath, Instruction.named]
    · simp [Instruction.named]

theorem opcode_storeCode (target : Expr) (tag : String) :
    ∀ instruction ∈ storeCode target tag, instruction.opcode ≠ .callFunc := by
  unfold storeCode
  split
  · exact opcode_storePath _ tag _
  · exact fun _ absent => absurd absent List.not_mem_nil

theorem calls_of_operand {operand : Expr} {tag : String} (listed : operand ∈ statement.operands)
    (member : instruction ∈ operand.code tag) (calling : instruction.opcode = .callFunc) :
    ∃ callee arguments needsValue, statement.Calls callee arguments needsValue ∧
      instruction.operand = .string callee := by
  obtain ⟨callee, arguments, part, named⟩ := Expr.exists_call member calling
  exact ⟨callee, arguments, true, .value listed part, named⟩

/-- An instruction that calls a function comes from a call in the statement it belongs to. -/
theorem calls_of_ownCode (member : instruction ∈ ownCode context statement)
    (calling : instruction.opcode = .callFunc) :
    ∃ callee arguments needsValue, statement.Calls callee arguments needsValue ∧
      instruction.operand = .string callee := by
  cases statement with
  | expression expr =>
    have inExpr : instruction ∈ expr.code (context.tag "expr") := by
      rcases List.mem_append.mp member with inside | behind
      · exact inside
      · split at behind
        · cases List.mem_singleton.mp behind
          cases calling
        · cases behind
    cases expr with
    | call callee arguments =>
      rcases List.mem_append.mp inExpr with inArguments | here
      · obtain ⟨argument, among, inArgument⟩ := Expr.exists_of_mem_codeAll inArguments
        exact calls_of_operand among inArgument calling
      · cases List.mem_singleton.mp here
        exact ⟨callee, arguments, false, .effect, rfl⟩
    | literal | identifier | binary | member =>
      exact calls_of_operand List.mem_cons_self inExpr calling
  | declaration type name initial =>
    rcases List.mem_append.mp member with inInitial | here
    · cases initial with
      | some expr => exact calls_of_operand List.mem_cons_self inInitial calling
      | none =>
        simp only [initialCode] at inInitial
        split at inInitial
        · cases inInitial
        · cases List.mem_singleton.mp inInitial
          dsimp only at calling
          split at calling <;> cases calling
    · cases List.mem_singleton.mp here
      cases calling
  | assignment target value =>
    rcases List.mem_append.mp member with inValue | inStore
    · exact calls_of_operand List.mem_cons_self inValue calling
    · exact absurd calling (opcode_storeCode target _ instruction inStore)
  | returning value =>
    cases value with
    | none =>
      cases List.mem_singleton.mp member
      cases calling
    | some expr =>
      rcases List.mem_append.mp member with inValue | here
      · exact calls_of_operand List.mem_cons_self inValue calling
      · cases List.mem_singleton.mp here
        cases calling
  | block body => cases member
  | conditional condition thenBranch elseBranch =>
    rcases ownCode_conditional member with inCondition | ⟨_, _, rfl | rfl, rfl⟩
    · exact calls_of_operand List.mem_cons_self inCondition calling
    · cases calling
    · cases calling

theorem Stands.part {part : Stmt} {offset : Nat} (stands : Stands context part offset statement) :
    Part part statement := by
  induction stands with
  | self => exact .self _
  | block front back _ inductionHypothesis => exact .block (by simp) inductionHypothesis
  | thenBranch condition elseBranch _ inductionHypothesis =>
    exact .thenBranch condition elseBranch inductionHypothesis
  | elseBranch condition thenBranch _ inductionHypothesis =>
    exact .elseBranch condition thenBranch inductionHypothesis

/-- The code of a part stands at its offset in the code of the statement. -/
theorem Stands.holds {part : Stmt} {offset address : Nat} {code : Bytecode}
    (stands : Stands context part offset statement)
    (holds : code.Holds address (statement.code context)) :
    code.Holds (address + offset) (part.code context) := by
  induction stands generalizing address with
  | self => exact holds
  | block front back _ inductionHypothesis =>
    rw [Stmt.code, codeAll_append, codeAll] at holds
    rw [← Nat.add_assoc]
    exact inductionHypothesis holds.right.left
  | thenBranch condition elseBranch _ inductionHypothesis =>
    rw [← Nat.add_assoc, ← Nat.add_assoc]
    cases elseBranch with
    | none => exact inductionHypothesis holds.right.tail
    | some elseBranch =>
      rw [code_twoWay] at holds
      exact inductionHypothesis holds.right.tail.left
  | elseBranch condition thenBranch _ inductionHypothesis =>
    rw [code_twoWay] at holds
    simp only [← Nat.add_assoc]
    exact inductionHypothesis holds.right.tail.right.tail

end Stmt

/-- A segment has the code of statements that the program includes, and a return at the end. -/
theorem Program.Segmented.exists_body (segmented : program.Segmented types compiled segments)
    {segment : Segment} (member : segment ∈ segments) :
    ∃ enclosing body,
      segment.code.toList = BodyContext.bodyCode ⟨program.functions, types, enclosing⟩ body ∧
      ∀ outer ∈ body, ∀ part, Stmt.Part part outer → program.Includes enclosing part := by
  cases owner : segment.owner with
  | some function =>
    have declared : function ∈ program.functionDecls := by
      have listed : segment.owner ∈ segments.map Segment.owner := List.mem_map_of_mem member
      rw [segmented.owners, owner] at listed
      simpa using listed
    obtain ⟨_, bodyCode⟩ :=
      FunctionDecl.compile_ok (segmented.functions segment member function owner)
    exact ⟨some function, function.body, bodyCode,
      fun outer inBody part inside => ⟨outer, inside, declared, inBody⟩⟩
  | none =>
    obtain ⟨_, bodyCode⟩ := BodyContext.compileBody_ok (segmented.globals segment member owner)
    exact ⟨none, program.globalStatements, bodyCode,
      fun outer standing part inside => ⟨outer, inside, standing⟩⟩

/-- An instruction that calls a function is in the code of a statement with such a call. -/
theorem Program.Segmented.exists_callSite (segmented : program.Segmented types compiled segments)
    {address : Nat} (found : compiled.code[address]? = some instruction)
    (calling : instruction.opcode = .callFunc) :
    ∃ site : CallSite, site.In program ∧ instruction.operand = .string site.callee ∧
      ∃ start place, compiled.code.Holds start (site.code program types) ∧
        address = start + place ∧ place < (site.code program types).length := by
  obtain ⟨segment, member, behind, before⟩ :=
    segmented.covers (Array.getElem?_eq_some_iff.mp found).1
  obtain ⟨index, rfl⟩ := Nat.exists_eq_add_of_le behind
  have holds := segmented.holds member
  rw [segmented.fetch member (Nat.lt_of_add_lt_add_left before)] at found
  obtain ⟨enclosing, body, bodyCode, included⟩ := segmented.exists_body member
  rw [bodyCode, BodyContext.bodyCode] at found holds
  -- The return at the end calls nothing, so the instruction is in the code of a statement.
  rcases getElem?_append_cons_cases found with inBody | ⟨_, rfl⟩ | ⟨_, _, absent⟩
  · obtain ⟨front, outer, back, inner, rfl, rfl, inOuter⟩ := Stmt.exists_of_codeAll inBody
    obtain ⟨part, offset, place, stands, rfl, owns, own⟩ := Stmt.originates_code inOuter
    obtain ⟨callee, arguments, needsValue, calls, named⟩ := Stmt.calls_of_ownCode own calling
    rw [Stmt.codeAll_append, Stmt.codeAll] at holds
    exact ⟨⟨enclosing, part, callee, arguments, needsValue⟩,
      ⟨included outer (by simp) part stands.part, calls⟩, named, _, place,
      stands.holds holds.left.right.left, by simp only [Nat.add_assoc], owns.inside⟩
  · cases calling
  · cases absent

/-- A call in an accepted program is one of the function that its name is declared to be. -/
theorem CallSite.In.fits {site : CallSite} {function : FunctionDecl} (inside : site.In program)
    (segmented : program.Segmented types compiled segments)
    (declared : program.function? site.callee = some function) :
    site.Fits program types function := by
  obtain ⟨enclosing, statement, callee, arguments, needsValue⟩ := site
  obtain ⟨included, calls⟩ := inside
  dsimp only at included calls declared
  obtain ⟨legal, _⟩ := segmented.includes included
  have wellFormed := (Stmt.legal_iff segmented.resolved).mp legal
  have dropped : BodyContext.callHasValue ⟨program.functions, types, enclosing⟩ callee =
      function.returnsValue := by
    have found : program.functions.find? callee = some function := declared
    rw [BodyContext.callHasValue, found, Option.all_some]
  cases calls with
  | value member part =>
    obtain ⟨hasValue, arity⟩ :=
      (wellFormed _ (.self _)).2 _ member _ part function declared
    exact ⟨arity, fun _ => hasValue, dropped⟩
  | effect =>
    exact ⟨wellFormed.proper function declared,
      fun needed => absurd needed Bool.false_ne_true, dropped⟩

end Origins

namespace Machine

/-- A call takes as many values from the stack as its function takes arguments. -/
theorem Action.taken_of_call {settings : Settings} {entry : FunctionEntry} {returnAddress : Nat}
    {state next : State} (called : call settings entry returnAddress state = .ok () next) :
    ∃ values, values.length = entry.declaration.arity ∧
      state.stack.values = values ++ next.stack.values := by
  rw [call, bind_get] at called
  split at called
  · cases called
  · dsimp only at called
    rcases Nat.lt_or_ge state.stack.values.length entry.declaration.arity with few | enough
    · -- The call would have failed for want of arguments.
      obtain ⟨after, failed⟩ := popMany_underflow few
      rw [bind_of_error failed] at called
      cases called
    · have parts := (List.take_append_drop entry.declaration.arity state.stack.values).symm
      have count := List.length_take_of_le enough
      have popped := popMany_append parts
      rw [count] at popped
      rw [bind_of_ok popped] at called
      cases called
      exact ⟨_, count, parts⟩

end Machine

/-- In an accepted program the code is that of all functions and of the global statements, a name is
in the table exactly if it is declared, and it leads to the code of its last declaration. Every call
fits the declaration that the table has of its name. A machine that makes a call does so for a call
in the program, goes to where its name leads, and takes the values of its arguments. -/
theorem table_agrees_with_declarations {program : Program} {compiled : CompiledProgram}
    (accepted : program.compile = .ok compiled) :
    ∃ types bodies initialiser, program.LaidOut types compiled bodies initialiser ∧
      (∀ name, (compiled.functions.find? name).map FunctionEntry.declaration =
        program.function? name) ∧
      (∀ name entry, compiled.functions.find? name = some entry →
        ∃ body, entry.Leads program types compiled name body) ∧
      (∀ site : CallSite, site.In program →
        ∀ entry, compiled.functions.find? site.callee = some entry →
          site.Fits program types entry.declaration) ∧
      ∀ settings state next instruction, compiled.code[state.pc]? = some instruction →
        instruction.opcode = .callFunc → Machine.Action.step compiled settings state = .ok () next →
        ∃ (site : CallSite) (entry : FunctionEntry) (start place : Nat) (values : List Value),
          site.In program ∧ compiled.code.Holds start (site.code program types) ∧
          state.pc = start + place ∧ place < (site.code program types).length ∧
          instruction.operand = .string site.callee ∧
          compiled.functions.find? site.callee = some entry ∧ next.pc = entry.address ∧
          values.length = site.arguments.length ∧
          state.stack.values = values ++ next.stack.values := by
  obtain ⟨types, segments, segmented⟩ := Program.segmented_of_compile accepted
  obtain ⟨bodies, initialiser, laidOut⟩ := segmented.laidOut
  have declarations : ∀ name, (compiled.functions.find? name).map FunctionEntry.declaration =
      program.function? name := by
    obtain ⟨_, placed⟩ := Program.placed_of_compile accepted
    exact placed.functions.declarations
  have declared : ∀ name entry, compiled.functions.find? name = some entry →
      program.function? name = some entry.declaration := by
    intro name entry found
    rw [← declarations name, found]
    rfl
  refine ⟨types, bodies, initialiser, laidOut, declarations, ?_, ?_, ?_⟩
  · intro name entry found
    exact segmented.leads found (declared name entry found)
  · intro site inside entry found
    exact inside.fits segmented (declared site.callee entry found)
  · intro settings state next instruction fetched calling stepped
    obtain ⟨site, inside, named, start, place, holds, position, within⟩ :=
      segmented.exists_callSite fetched calling
    obtain ⟨name, entry, operand, found, called⟩ :=
      Machine.Action.call_of_step fetched calling stepped
    cases named.symm.trans operand
    obtain ⟨values, count, parts⟩ := Machine.Action.taken_of_call called
    have fits := inside.fits segmented (declared _ entry found)
    refine ⟨site, entry, start, place, values, inside, holds, position, within, named, found, ?_,
      count.trans fits.arity, ?_⟩
    · exact (Machine.Action.entered_of_call called).pc_eq
    · rw [← parts, Machine.Action.stack_fetched]

/-- A program in which a function is declared again with a parameter more, behind a call of it. -/
def redeclared : Program where
  items := [
    .function {
      name := "pick"
      returnType := "Int"
      parameters := []
      body := [.returning (some (.literal (.int 1)))] },
    .global (.expression (.call "pick" [.literal (.int 2)])),
    .function {
      name := "pick"
      returnType := "Int"
      parameters := [⟨"Int", "n"⟩]
      body := [.returning (some (.identifier "n"))] }]

/-- Both bodies of `pick` are in the code of `redeclared`, and the call goes to the second one with
its argument. -/
theorem redeclared_table_agrees :
    ∃ compiled types bodies initialiser, redeclared.compile = .ok compiled ∧
      redeclared.LaidOut types compiled bodies initialiser ∧ bodies.length = 2 ∧
      ∃ entry body, compiled.functions.find? "pick" = some entry ∧
        entry.Leads redeclared types compiled "pick" body ∧ entry.declaration.arity = 1 ∧
        ∃ state next values, Machine.Action.step compiled {} state = .ok () next ∧
          next.pc = entry.address ∧ values.length = 1 ∧
          state.stack.values = values ++ next.stack.values := by
  have accepted : redeclared.compile = .ok _ := rfl
  obtain ⟨types, bodies, initialiser, laidOut, _, leads, fits, calls⟩ :=
    table_agrees_with_declarations accepted
  obtain ⟨body, leads⟩ := leads "pick" _ rfl
  refine ⟨_, types, bodies, initialiser, accepted, laidOut, laidOut.functions.length_eq.symm, _,
    body, rfl, leads, rfl, ?_⟩
  let state : Machine.State :=
    { Machine.State.initial {} with pc := 7, stack := ⟨4096, [.int 2, .int 5], 2, rfl⟩ }
  obtain ⟨site, entry, _, _, values, inside, _, _, _, named, found, target, count, parts⟩ :=
    calls {} state _ _ rfl rfl rfl
  have arity := (fits site inside entry found).arity
  rw [← Value.string.inj named] at found
  cases found
  exact ⟨state, _, values, rfl, target, count.trans arity.symm, parts⟩

end StackLang
