import Mathlib.Data.List.Chain
import StackLang.Proofs.FrameTables
import StackLang.Proofs.InstructionRules
import StackLang.Proofs.PlainCode
import StackLang.Proofs.Segments

/-!
# Control stays where it belongs

Every jump of a compiled program leads forwards and no further than the return at the end of its own
body (`Stmt.jumpsWithin_code`), and only that return is the last instruction of a segment. So the
machine never leaves the segment of the innermost call but by a call or a return, and a return leads
back behind the call that it answers: `Confined` is what a step preserves (`Confined.step`) and what
holds in every state of a run (`Confined.of_visited`).
-/

namespace StackLang

namespace Instruction

/-- Instructions that can move control inside a body. -/
def IsJump (instruction : Instruction) : Prop :=
  instruction.opcode = .jump ∨ instruction.opcode = .jumpIfFalse

/-- A piece of code without jumps. -/
def Straight (fragment : List Instruction) : Prop :=
  ∀ instruction ∈ fragment, ¬ instruction.IsJump

/-- The jumps of a piece of code lead forwards and no further than its end. -/
def JumpsWithin (fragment : List Instruction) : Prop :=
  ∀ index instruction, fragment[index]? = some instruction → instruction.IsJump →
    ∃ count, instruction.operand = .int (Int64.ofNat count) ∧ index + 1 + count ≤ fragment.length

variable {first second fragment : List Instruction}

theorem Straight.append (firstStraight : Straight first) (secondStraight : Straight second) :
    Straight (first ++ second) :=
  List.forall_mem_append.mpr ⟨firstStraight, secondStraight⟩

theorem Straight.nil : Straight [] :=
  fun _ absent => absurd absent List.not_mem_nil

theorem Straight.singleton {instruction : Instruction} (noJump : ¬ instruction.IsJump) :
    Straight [instruction] :=
  List.forall_mem_singleton.mpr noJump

theorem Straight.jumpsWithin (straight : Straight fragment) : JumpsWithin fragment := by
  intro index instruction found jumping
  exact absurd jumping (straight instruction (List.mem_of_getElem? found))

/-- Code behind a piece of code does not shorten the way of its jumps. -/
theorem JumpsWithin.append (firstWithin : JumpsWithin first) (secondWithin : JumpsWithin second) :
    JumpsWithin (first ++ second) := by
  intro index instruction found jumping
  rw [List.length_append]
  by_cases before : index < first.length
  · rw [List.getElem?_append_left before] at found
    obtain ⟨count, operand, reach⟩ := firstWithin index instruction found jumping
    exact ⟨count, operand, by omega⟩
  · rw [List.getElem?_append_right (Nat.le_of_not_lt before)] at found
    obtain ⟨count, operand, reach⟩ := secondWithin _ instruction found jumping
    exact ⟨count, operand, by omega⟩

theorem JumpsWithin.behindJump (within : JumpsWithin fragment) (opcode : Opcode) (count : Nat)
    (tag : String) (reach : count ≤ fragment.length) :
    JumpsWithin (jumpOver opcode count tag :: fragment) := by
  intro index instruction found jumping
  rw [List.length_cons]
  cases index with
  | zero =>
    cases found
    exact ⟨count, rfl, by omega⟩
  | succ index =>
    obtain ⟨further, operand, inside⟩ := within index instruction found jumping
    exact ⟨further, operand, by omega⟩

theorem Plain.noJump {tag : String} {instruction : Instruction} (plain : instruction.Plain tag) :
    ¬ instruction.IsJump := by
  have opcode := plain.opcode
  rintro (jumping | jumping) <;> simp [jumping, Opcode.isPlain] at opcode

theorem straight_of_plain {tag : String}
    (plain : ∀ instruction ∈ fragment, instruction.Plain tag) : Straight fragment :=
  fun instruction member => (plain instruction member).noJump

end Instruction

open Instruction

namespace Stmt

variable {context : BodyContext}

theorem jumpsWithin_codeAll {body : List Stmt}
    (each : ∀ statement ∈ body, JumpsWithin (statement.code context)) :
    JumpsWithin (codeAll context body) := by
  induction body with
  | nil => exact Straight.nil.jumpsWithin
  | cons statement rest inductionHypothesis =>
    obtain ⟨first, others⟩ := List.forall_mem_cons.mp each
    exact first.append (inductionHypothesis others)

/-- The jumps of a statement lead no further than behind it. -/
theorem jumpsWithin_code (statement : Stmt) : JumpsWithin (statement.code context) := by
  induction statement using Stmt.induction with
  | expression expr => exact (straight_of_plain (plain_expression expr)).jumpsWithin
  | declaration type name initial =>
    exact (straight_of_plain (plain_declaration type name initial)).jumpsWithin
  | assignment target value =>
    exact (straight_of_plain (plain_assignment target value)).jumpsWithin
  | returning value =>
    have ends : ∀ opcode : Opcode, opcode.isReturn = true →
        Straight [bare opcode (context.tag "return")] := by
      rintro opcode returning
      refine .singleton ?_
      rintro (rfl | rfl) <;> simp [Opcode.isReturn] at returning
    cases value with
    | none => exact (ends .returnVoid rfl).jumpsWithin
    | some expr =>
      exact ((straight_of_plain (expr.plain_code _)).append (ends .returnValue rfl)).jumpsWithin
  | block body bodyWithin => exact jumpsWithin_codeAll bodyWithin
  | oneWay condition thenBranch thenWithin =>
    have branch := thenWithin.behindJump .jumpIfFalse _ (context.tag "if") (Nat.le_refl _)
    exact (straight_of_plain (condition.plain_code _)).jumpsWithin.append branch
  | twoWay condition thenBranch elseBranch thenWithin elseWithin =>
    have elseCode := elseWithin.behindJump .jump _ (context.tag "if") (Nat.le_refl _)
    have branches := (thenWithin.append elseCode).behindJump .jumpIfFalse
      ((code context thenBranch).length + 1) (context.tag "if") (by simp)
    have whole := (straight_of_plain (condition.plain_code (context.tag "if"))).jumpsWithin.append
      branches
    simpa [code] using whole

end Stmt

theorem Segment.size_of_bodyCode {segment : Segment} {context : BodyContext} {body : List Stmt}
    (code : segment.code.toList = context.bodyCode body) :
    segment.code.size = (Stmt.codeAll context body).length + 1 := by
  rw [← Array.length_toList, code, BodyContext.bodyCode, List.length_append,
    List.length_singleton]

namespace Program.Segmented

variable {program : Program} {types : StructTypes} {compiled : CompiledProgram}
  {segments : List Segment} {segment : Segment} {address : Nat} {instruction : Instruction}

/-- An instruction of a segment belongs to the statements of its body or is the return behind
them. -/
theorem fetch_cases (segmented : program.Segmented types compiled segments)
    (member : segment ∈ segments) (contains : segment.Contains address)
    (found : compiled.code[address]? = some instruction) :
    ∃ context body, segment.code.size = (Stmt.codeAll context body).length + 1 ∧
      ((Stmt.codeAll context body)[address - segment.start]? = some instruction ∨
        (address + 1 = segment.stop ∧ ∃ tag, instruction = .bare .returnVoid tag)) := by
  obtain ⟨context, body, code⟩ := segmented.bodyCode member
  have size := Segment.size_of_bodyCode code
  refine ⟨context, body, size, ?_⟩
  obtain ⟨behind, before⟩ := contains
  unfold Segment.stop at before ⊢
  obtain ⟨index, rfl⟩ := Nat.exists_eq_add_of_le behind
  rw [segmented.fetch member (by omega), code, BodyContext.bodyCode] at found
  rw [Nat.add_sub_cancel_left]
  by_cases inside : index < (Stmt.codeAll context body).length
  · rw [List.getElem?_append_left inside] at found
    exact .inl found
  · have last : index = (Stmt.codeAll context body).length := by omega
    rw [last, List.getElem?_append_right (Nat.le_refl _), Nat.sub_self] at found
    cases found
    exact .inr ⟨by omega, _, rfl⟩

/-- Only the return at its end is the last instruction of a segment. -/
theorem contains_next (segmented : program.Segmented types compiled segments)
    (member : segment ∈ segments) (contains : segment.Contains address)
    (found : compiled.code[address]? = some instruction)
    (goesOn : instruction.opcode ≠ .returnVoid) : segment.Contains (address + 1) := by
  obtain ⟨behind, before⟩ := contains
  refine ⟨Nat.le_succ_of_le behind, ?_⟩
  obtain ⟨context, body, size, inside | ⟨_, tag, rfl⟩⟩ :=
    segmented.fetch_cases member ⟨behind, before⟩ found
  · have bound := (List.getElem?_eq_some_iff.mp inside).1
    unfold Segment.stop
    omega
  · exact absurd rfl goesOn

/-- A jump leads forwards to an address of its own segment. -/
theorem jump_inside (segmented : program.Segmented types compiled segments)
    (member : segment ∈ segments) (contains : segment.Contains address)
    (found : compiled.code[address]? = some instruction) (jumping : instruction.IsJump) :
    ∃ count, instruction.operand = .int (Int64.ofNat count) ∧
      address + 1 + count < segment.stop := by
  obtain ⟨context, body, size, inside | ⟨_, tag, rfl⟩⟩ :=
    segmented.fetch_cases member contains found
  · have within : JumpsWithin (Stmt.codeAll context body) :=
      Stmt.jumpsWithin_codeAll fun statement _ => statement.jumpsWithin_code
    obtain ⟨count, operand, reach⟩ := within _ instruction inside jumping
    have behind := contains.1
    refine ⟨count, operand, ?_⟩
    unfold Segment.stop
    omega
  · exact absurd jumping (by simp [IsJump, bare])

theorem contains_start (segmented : program.Segmented types compiled segments)
    (member : segment ∈ segments) : segment.Contains segment.start := by
  obtain ⟨context, body, code⟩ := segmented.bodyCode member
  have size := Segment.size_of_bodyCode code
  refine ⟨Nat.le_refl _, ?_⟩
  unfold Segment.stop
  omega

theorem ends_with_return (segmented : program.Segmented types compiled segments)
    (member : segment ∈ segments) :
    ∃ tag, compiled.code[segment.stop - 1]? = some (.bare .returnVoid tag) := by
  obtain ⟨context, body, code⟩ := segmented.bodyCode member
  have size := Segment.size_of_bodyCode code
  have last : segment.stop - 1 = segment.start + (Stmt.codeAll context body).length := by
    unfold Segment.stop
    omega
  refine ⟨context.tag "end", ?_⟩
  rw [last, segmented.fetch member (by omega), code, BodyContext.bodyCode,
    List.getElem?_append_right (Nat.le_refl _), Nat.sub_self]
  rfl

/-- The operand of a jump is the distance to an address of its own segment. -/
theorem jump_target (segmented : program.Segmented types compiled segments)
    (addressable : compiled.Addressable) (member : segment ∈ segments)
    (contains : segment.Contains address)
    (found : compiled.code[address]? = some instruction) (jumping : instruction.IsJump) :
    ∃ (distance : Int64) (count : Nat), instruction.operand = .int distance ∧
      distance.toInt = count ∧ address + 1 + count < segment.stop := by
  obtain ⟨count, operand, reach⟩ := segmented.jump_inside member contains found jumping
  have short : (compiled.code.size : Int) ≤ Int64.maxValue.toInt := addressable
  have greatest : Int64.maxValue.toInt = 9223372036854775807 := rfl
  have stops := segmented.stop_le member
  exact ⟨Int64.ofNat count, count, operand, Int64.toInt_ofNat_of_lt (by omega), reach⟩

end Program.Segmented

namespace Machine

/-- The segment that a frame carries out: the last one for the frame of the global statements, and
that of the last declaration of its name for the frame of a called function. -/
inductive Executes (compiled : CompiledProgram) (segments : List Segment) : Frame → Segment → Prop
    where
  | initialiser {front : List Segment} {segment : Segment} (last : segments = front ++ [segment]) :
      Executes compiled segments (initialFrame compiled) segment
  | function {frame : Frame} {segment : Segment} (called : frame.scope ≠ .global)
      (last : Segment.LastOf segments frame.function segment) :
      Executes compiled segments frame segment

/-- A frame will return right behind an instruction of its caller that calls its function. -/
def ReturnsTo (compiled : CompiledProgram) (segments : List Segment) (callee caller : Frame) :
    Prop :=
  ∃ segment address instruction, Executes compiled segments caller segment ∧
    segment.Contains address ∧ compiled.code[address]? = some instruction ∧
    instruction.opcode = .callFunc ∧ instruction.operand = .string callee.function ∧
    callee.returnAddress = address + 1

/-- Control is in the segment of the innermost call, and all calls will return to where they were
made. -/
structure Confined (compiled : CompiledProgram) (segments : List Segment) (state : State) : Prop
    where
  located : ∀ frame callers, state.calls = frame :: callers →
    ∃ segment, Executes compiled segments frame segment ∧ segment.Contains state.pc
  linked : state.calls.IsChain (ReturnsTo compiled segments)
  global : 0 < state.scopes.size

section Confinement

variable {program : Program} {types : StructTypes} {compiled : CompiledProgram}
  {segments : List Segment} {settings : Settings} {prior state next : State}

theorem Executes.member {frame : Frame} {segment : Segment}
    (executes : Executes compiled segments frame segment) : segment ∈ segments := by
  cases executes with
  | initialiser last => simp [last]
  | function _ last => exact last.member

/-- A call executes the last declaration of its function. -/
theorem Executes.lastOf {frame : Frame} {segment : Segment}
    (executes : Executes compiled segments frame segment) (called : frame.scope ≠ .global) :
    Segment.LastOf segments frame.function segment := by
  cases executes with
  | initialiser _ => exact absurd rfl called
  | function _ last => exact last

theorem size_release_pos {scopes : Scopes} (positive : 0 < scopes.size) (scope : ScopeId) :
    0 < (scopes.release scope).size := by
  unfold Scopes.release
  split
  · next newest =>
    obtain ⟨isLocal, last⟩ := newest
    have nonzero : scope.index ≠ 0 := fun zero => isLocal (congrArg ScopeId.mk zero)
    rw [Scopes.size, Array.size_pop]
    unfold Scopes.size at last
    omega
  · exact positive

/-- A function that is called is in the segment of its last declaration. -/
theorem Entered.located (segmented : program.Segmented types compiled segments)
    {name : String} {entry : FunctionEntry} {returnAddress : Nat}
    (found : compiled.functions.find? name = some entry) (positive : 0 < state.scopes.size)
    (entered : Entered settings entry returnAddress state next) :
    ∃ frame, next.calls = frame :: state.calls ∧ frame.function = name ∧
      frame.returnAddress = returnAddress ∧
      ∃ segment, Executes compiled segments frame segment ∧ segment.Contains next.pc := by
  obtain ⟨segment, last, owned, started⟩ := segmented.entries name entry found
  have named : entry.declaration.name = name := by
    obtain ⟨_, _, _, ⟨function, same, named⟩, _⟩ := last
    rw [owned] at same
    cases same
    exact named
  refine ⟨_, entered.calls_eq, named, rfl, segment, .function ?_ (named ▸ last), ?_⟩
  · intro isGlobal
    exact Nat.ne_of_gt positive (congrArg ScopeId.index isGlobal)
  · rw [entered.pc_eq, ← started]
    exact segmented.contains_start last.member

/-- A step keeps control where it belongs. -/
theorem Confined.step (segmented : program.Segmented types compiled segments)
    (addressable : compiled.Addressable) (confined : Confined compiled segments state)
    (busy : state.calls ≠ [])
    (stepped : Action.step compiled settings state = .ok () next) :
    Confined compiled segments next := by
  obtain ⟨instruction, found, performed⟩ := Action.step_cases stepped
  have fetched := Action.undisturbed_fetched settings instruction state
  obtain ⟨frame, callers, active⟩ := List.exists_cons_of_ne_nil busy
  obtain ⟨segment, executes, contains⟩ := confined.located frame callers active
  have member := executes.member
  -- Going on inside the segment leaves calls and tables as they are.
  have inside : ∀ after : State, Undisturbed state after → segment.Contains after.pc →
      Confined compiled segments after := by
    intro after same containsAfter
    refine ⟨?_, same.calls_eq ▸ confined.linked, ?_⟩
    · intro innermost others activeAfter
      rw [same.calls_eq, active] at activeAfter
      cases activeAfter
      exact ⟨segment, executes, containsAfter⟩
    · rw [← Scopes.length_parents, same.parents_eq, Scopes.length_parents]
      exact confined.global
  cases performed with
  | onward steady own =>
    refine inside next (fetched.trans steady.toUndisturbed) ?_
    rw [steady.pc_eq, Action.pc_fetched]
    exact segmented.contains_next member contains found fun returning => own (by simp [returning])
  | @jumped between distance steady jumping operand _ =>
    obtain ⟨other, count, operandHere, distance_eq, reach⟩ :=
      segmented.jump_target addressable member contains found jumping
    obtain rfl : distance = other := Value.int.inj (operand.symm.trans operandHere)
    refine inside _ { fetched.trans steady.toUndisturbed with } ?_
    have target : saturate ((state.pc + 1 : Nat) + distance.toInt) =
        (state.pc + 1 + count : Nat) := by
      have stops := segmented.stop_le member
      have short : (compiled.code.size : Int) ≤ Int64.maxValue.toInt := addressable
      rw [distance_eq, ← Int.natCast_add, saturate_natCast (by omega)]
    have forwards : segment.start ≤ state.pc + 1 + count := by
      have behind := contains.1
      omega
    rw [Action.pc_fetched, target, Int.toNat_natCast]
    exact ⟨forwards, reach⟩
  | called calling operand foundEntry entered =>
    have positive : 0 < (Action.fetched settings instruction state).scopes.size := by
      rw [Action.scopes_fetched]
      exact confined.global
    obtain ⟨innermost, calls_eq, named, returns, located⟩ :=
      entered.located segmented foundEntry positive
    rw [fetched.calls_eq] at calls_eq
    refine ⟨?_, ?_, ?_⟩
    · intro other others activeNext
      rw [calls_eq] at activeNext
      cases activeNext
      exact located
    · have linked := confined.linked
      rw [calls_eq, active]
      rw [active] at linked
      refine List.isChain_cons_cons.mpr ⟨?_, linked⟩
      exact ⟨segment, state.pc, instruction, executes, contains, found, calling,
        named ▸ operand, returns⟩
    · rw [← Scopes.length_parents, entered.parents_eq, List.length_append]
      exact Nat.lt_add_left _ Nat.zero_lt_one
  | left _ =>
    have activeFetched := fetched.calls_eq.trans active
    rw [State.leave_eq activeFetched]
    have linked := confined.linked
    rw [active] at linked
    refine ⟨?_, linked.tail, ?_⟩
    · rintro caller others rfl
      obtain ⟨⟨segment, address, call, executes, contains, found, calling, _, returns⟩, _⟩ :=
        List.isChain_cons_cons.mp linked
      refine ⟨segment, executes, ?_⟩
      show segment.Contains frame.returnAddress
      rw [returns]
      exact segmented.contains_next executes.member contains found (by simp [calling])
    · apply size_release_pos
      rw [Action.scopes_fetched]
      exact confined.global

theorem Confined.advance (segmented : program.Segmented types compiled segments)
    (addressable : compiled.Addressable) {count : Nat} {after : State}
    (confined : Confined compiled segments state)
    (advanced : advance compiled settings count state = some after) :
    Confined compiled segments after := by
  induction count generalizing state with
  | zero =>
    cases advanced
    exact confined
  | succ count inductionHypothesis =>
    obtain ⟨next, busy, stepped, later⟩ := exists_step_of_advance advanced
    exact inductionHypothesis (confined.step segmented addressable busy stepped) later

theorem Confined.start (segmented : program.Segmented types compiled segments)
    (main : FunctionEntry) (prior : State) :
    Confined compiled segments (start compiled main prior.reset) := by
  obtain ⟨front, segment, last, _, started, _⟩ := segmented.initialiser
  have executes : Executes compiled segments (initialFrame compiled) segment := .initialiser last
  refine ⟨?_, List.isChain_singleton _, Nat.zero_lt_one⟩
  intro frame callers active
  cases active
  refine ⟨segment, executes, ?_⟩
  have contains := segmented.contains_start executes.member
  rw [started] at contains
  exact contains

/-- Control is where it belongs in every state of a run. -/
theorem Confined.of_visited (segmented : program.Segmented types compiled segments)
    (addressable : compiled.Addressable) (visited : Visited compiled settings prior state) :
    Confined compiled segments state := by
  obtain ⟨begun, count, begins, advanced⟩ := visited
  refine Confined.advance segmented addressable ?_ advanced
  cases begins with
  | initialiser found => exact .start segmented _ prior
  | main found settled called =>
    obtain ⟨steps, last, reached, ⟨idle, same⟩ | ⟨_, _, _, _, impossible⟩⟩ :=
      advance_of_settle settled
    · cases same
      have initialised := (Confined.start segmented _ prior).advance segmented addressable reached
      have entered := Action.entered_of_call called
      obtain ⟨frame, calls_eq, _, _, located⟩ :=
        entered.located segmented found initialised.global
      rw [idle] at calls_eq
      refine ⟨?_, ?_, ?_⟩
      · intro innermost callers active
        rw [calls_eq] at active
        cases active
        exact located
      · rw [calls_eq]
        exact List.isChain_singleton _
      · rw [← Scopes.length_parents, entered.parents_eq, List.length_append]
        exact Nat.lt_add_left _ Nat.zero_lt_one
    · cases impossible

end Confinement

/-- The code of an accepted program is divided into segments, one for each body, that do not
overlap; every instruction that a run fetches lies in the segment of the innermost call, every call
returns right behind the instruction that made it, and every jump leads forwards inside its
segment. -/
theorem control_stays_in_segments {program : Program} {compiled : CompiledProgram}
    (accepted : program.compile = .ok compiled) (addressable : compiled.Addressable) :
    ∃ types segments, program.Segmented types compiled segments ∧
      (segments.Pairwise fun earlier later => earlier.stop ≤ later.start) ∧
      (∀ settings prior state, Visited compiled settings prior state →
        Confined compiled segments state) ∧
      ∀ address instruction, compiled.code[address]? = some instruction → instruction.IsJump →
        ∃ segment ∈ segments, segment.Contains address ∧
          (∃ (distance : Int64) (count : Nat), instruction.operand = .int distance ∧
            distance.toInt = count ∧ address + 1 + count ≤ segment.stop - 1) ∧
          ∃ tag, compiled.code[segment.stop - 1]? = some (.bare .returnVoid tag) := by
  obtain ⟨types, segments, segmented⟩ := Program.segmented_of_compile accepted
  refine ⟨types, segments, segmented, segmented.adjoin.apart, ?_, ?_⟩
  · intro settings prior state visited
    exact .of_visited segmented addressable visited
  · intro address instruction found jumping
    obtain ⟨segment, member, contains⟩ :=
      segmented.covers (Array.getElem?_eq_some_iff.mp found).1
    obtain ⟨distance, count, operand, distance_eq, reach⟩ :=
      segmented.jump_target addressable member contains found jumping
    exact ⟨segment, member, contains, ⟨distance, count, operand, distance_eq, by omega⟩,
      segmented.ends_with_return member⟩

/-- A program that declares a function twice and calls it in the global statements. -/
def shadowed : Program where
  items := [
    .function {
      name := "pick"
      returnType := "Int"
      parameters := []
      body := [.returning (some (.literal (.int 1)))] },
    .global (.declaration "Int" "picked" (some (.call "pick" []))),
    .function {
      name := "pick"
      returnType := "Int"
      parameters := []
      body := [.conditional (.literal (.bool true)) (.returning (some (.literal (.int 2))))
        (some (.returning (some (.literal (.int 3)))))] },
    .function { name := "main", returnType := "void", parameters := [], body := [] }]

/-- While `pick` runs, control is in the segment of its second declaration. -/
theorem shadowed_stays_in_segments :
    ∃ compiled types segments state segment, shadowed.compile = .ok compiled ∧
      compiled.Addressable ∧ shadowed.Segmented types compiled segments ∧
      Visited compiled {} (.initial {}) state ∧ state.pc = 3 ∧
      state.calls.backtrace = ["global", "pick"] ∧ Confined compiled segments state ∧
      Segment.LastOf segments "pick" segment ∧ segment.Contains state.pc := by
  have accepted : shadowed.compile = .ok _ := rfl
  obtain ⟨types, segments, segmented, _, confined, _⟩ :=
    control_stays_in_segments accepted (by decide)
  -- The first step is the call of `pick`.
  have stays := confined {} (.initial {}) _ ⟨_, 1, .initialiser rfl, rfl⟩
  obtain ⟨segment, executes, contains⟩ := stays.located _ _ rfl
  exact ⟨_, types, segments, _, segment, accepted, by decide, segmented,
    ⟨_, 1, .initialiser rfl, rfl⟩, rfl, rfl, stays, executes.lastOf (by decide), contains⟩

end Machine

end StackLang
