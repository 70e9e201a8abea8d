import StackLang.Proofs.ControlFlow
import StackLang.Proofs.WellFormed

/-!
# Which bodies run to their end

The ways that control can take in a piece of code are the paths of a graph on its addresses
(`Bytecode.Flow`): a jump leads to its target, a conditional jump there or on, a return nowhere, and
everything else on. A statement that some way leads through can be passed (`Stmt.Passable.reaches`),
and one that always returns is never left at its end (`Stmt.confines_of_returns`). So the return
behind the statements of a body is in reach exactly if they do not always return
(`end_reached_iff_not_returns`).
-/

namespace StackLang

open Instruction Relation

/-- The addresses that control can go to from an instruction at an address. -/
inductive Instruction.LeadsTo (instruction : Instruction) (address : Nat) : Nat → Prop where
  | onward (goesOn : instruction.opcode ≠ .jump) (stays : instruction.opcode.isReturn = false) :
      LeadsTo instruction address (address + 1)
  | jumped {distance : Int64} {target : Nat} (jumping : instruction.IsJump)
      (operand : instruction.operand = .int distance)
      (lands : (target : Int) = address + 1 + distance.toInt) :
      LeadsTo instruction address target

theorem Instruction.Plain.leadsTo {tag : String} {instruction : Instruction}
    (plain : instruction.Plain tag) (address : Nat) :
    instruction.LeadsTo address (address + 1) := by
  obtain ⟨opcode, operand, tag⟩ := instruction
  have isPlain : opcode.isPlain = true := plain.opcode
  constructor
  · rintro rfl
    cases isPlain
  · cases opcode with
    | returnValue | returnVoid => cases isPlain
    | _ => rfl

namespace Bytecode

/-- Control can go from one address to another in one step. -/
def Flow (code : Bytecode) (address target : Nat) : Prop :=
  ∃ instruction, code[address]? = some instruction ∧ instruction.LeadsTo address target

/-- Control can go from one address to another. -/
def Reaches (code : Bytecode) : Nat → Nat → Prop :=
  ReflTransGen code.Flow

/-- Control that is at one address never gets as far as another. -/
def Confines (code : Bytecode) (address stop : Nat) : Prop :=
  ∀ target, code.Reaches address target → target < stop

/-- The code is short enough for its addresses to be integers of the machine. -/
def Addressable (code : Bytecode) : Prop :=
  code.size ≤ Int64.maxValue.toInt

instance (code : Bytecode) : Decidable code.Addressable :=
  inferInstanceAs (Decidable (code.size ≤ Int64.maxValue.toInt))

variable {code : Bytecode} {address target stop : Nat} {fragment rest : List Instruction}
  {tag : String}

theorem toInt_distance (addressable : code.Addressable) {count : Nat} (inside : count ≤ code.size) :
    (Int64.ofNat count).toInt = count := by
  have greatest : Int64.maxValue.toInt = 9223372036854775807 := rfl
  unfold Addressable at addressable
  exact Int64.toInt_ofNat_of_lt (by omega)

namespace Holds

theorem reaches_of_plain (holds : code.Holds address fragment)
    (plain : ∀ instruction ∈ fragment, instruction.Plain tag) :
    code.Reaches address (address + fragment.length) := by
  induction fragment generalizing address with
  | nil => exact .refl
  | cons instruction rest inductionHypothesis =>
    obtain ⟨first, others⟩ := List.forall_mem_cons.mp plain
    have onward : code.Flow address (address + 1) :=
      ⟨instruction, holds.head, first.leadsTo address⟩
    have later := inductionHypothesis holds.tail others
    rw [Nat.add_right_comm] at later
    exact .head onward later

/-- A jump leads over as many instructions as it says. -/
theorem flow_jumpOver (addressable : code.Addressable) {opcode : Opcode} {count : Nat}
    (holds : code.Holds address (jumpOver opcode count tag :: rest))
    (jumping : opcode = .jump ∨ opcode = .jumpIfFalse) (inside : count ≤ rest.length) :
    code.Flow address (address + 1 + count) := by
  have bound := holds.length_le (List.cons_ne_nil _ _)
  rw [List.length_cons] at bound
  refine ⟨_, holds.head, .jumped jumping rfl ?_⟩
  rw [toInt_distance addressable (by omega)]
  omega

theorem flow_condition {count : Nat}
    (holds : code.Holds address (jumpOver .jumpIfFalse count tag :: rest)) :
    code.Flow address (address + 1) :=
  ⟨_, holds.head, .onward Opcode.noConfusion rfl⟩

/-- Control in a piece of code goes forwards and no further than right behind it. -/
theorem flow_bounds (addressable : code.Addressable) (holds : code.Holds address fragment)
    (within : JumpsWithin fragment) {source : Nat} (behind : address ≤ source)
    (inside : source < address + fragment.length) (flow : code.Flow source target) :
    address ≤ target ∧ target ≤ address + fragment.length := by
  obtain ⟨index, rfl⟩ := Nat.exists_eq_add_of_le behind
  obtain ⟨instruction, found, leads⟩ := flow
  have present := List.getElem?_eq_getElem (Nat.lt_of_add_lt_add_left inside)
  cases found.symm.trans (holds index _ present)
  have bound := holds.length_le (List.length_pos_iff.mp (by omega))
  cases leads with
  | onward => omega
  | jumped jumping operand lands =>
    obtain ⟨count, counted, reach⟩ := within index _ present jumping
    rw [operand] at counted
    cases counted
    rw [toInt_distance addressable (by omega)] at lands
    omega

end Holds

namespace Confines

theorem mono {further : Nat} (confines : code.Confines address stop) (before : stop ≤ further) :
    code.Confines address further :=
  fun target reaches => Nat.lt_of_lt_of_le (confines target reaches) before

theorem of_flow (before : address < stop)
    (each : ∀ next, code.Flow address next → code.Confines next stop) :
    code.Confines address stop := by
  intro target reaches
  rcases ReflTransGen.cases_head reaches with rfl | ⟨next, flow, later⟩
  · exact before
  · exact each next flow target later

/-- Control that comes through a piece of code is kept by what keeps it behind that. -/
theorem behind (addressable : code.Addressable) (holds : code.Holds address fragment)
    (within : JumpsWithin fragment)
    (later : code.Confines (address + fragment.length) stop) : code.Confines address stop := by
  intro target reaches
  have before : address + fragment.length < stop := later _ .refl
  -- On every way control is still in the piece of code, or has been right behind it.
  have invariant : (address ≤ target ∧ target < address + fragment.length) ∨
      code.Reaches (address + fragment.length) target := by
    induction reaches with
    | refl =>
      by_cases empty : fragment.length = 0
      · rw [empty]
        exact .inr .refl
      · exact .inl (by omega)
    | tail _ flow inductionHypothesis =>
      rcases inductionHypothesis with ⟨atLeast, inside⟩ | behindIt
      · obtain ⟨stays, bound⟩ := holds.flow_bounds addressable within atLeast inside flow
        rcases Nat.lt_or_eq_of_le bound with less | rfl
        · exact .inl ⟨stays, less⟩
        · exact .inr .refl
      · exact .inr (behindIt.tail flow)
  rcases invariant with ⟨_, inside⟩ | behindIt
  · omega
  · exact later target behindIt

theorem at_return {opcode : Opcode} (returning : opcode.isReturn = true)
    (holds : code.Holds address (bare opcode tag :: rest)) :
    code.Confines address (address + 1) := by
  refine .of_flow (Nat.lt_succ_self _) ?_
  rintro next ⟨instruction, found, leads⟩
  cases found.symm.trans holds.head
  cases leads with
  | onward _ stays => cases returning.symm.trans stays
  | jumped jumping =>
    obtain rfl | rfl : opcode = .jump ∨ opcode = .jumpIfFalse := jumping <;> cases returning

theorem at_condition (addressable : code.Addressable) {count : Nat}
    (holds : code.Holds address (jumpOver .jumpIfFalse count tag :: rest))
    (inside : count ≤ rest.length) (whenTrue : code.Confines (address + 1) stop)
    (whenFalse : code.Confines (address + 1 + count) stop) : code.Confines address stop := by
  have bound := holds.length_le (List.cons_ne_nil _ _)
  rw [List.length_cons] at bound
  refine .of_flow (Nat.lt_of_succ_lt (whenTrue _ .refl)) ?_
  rintro next ⟨instruction, found, leads⟩
  cases found.symm.trans holds.head
  cases leads with
  | onward => exact whenTrue
  | jumped jumping operand lands =>
    cases operand
    rw [toInt_distance addressable (by omega)] at lands
    obtain rfl : next = address + 1 + count := by omega
    exact whenFalse

end Confines

end Bytecode

namespace Stmt

variable {context : BodyContext} {code : Bytecode} {address : Nat} {statement : Stmt}

theorem reaches_codeAll {body : List Stmt}
    (each : ∀ statement ∈ body, ∀ {address}, code.Holds address (statement.code context) →
      code.Reaches address (address + (statement.code context).length))
    (holds : code.Holds address (codeAll context body)) :
    code.Reaches address (address + (codeAll context body).length) := by
  induction body generalizing address with
  | nil => exact .refl
  | cons statement rest inductionHypothesis =>
    obtain ⟨first, others⟩ := List.forall_mem_cons.mp each
    rw [codeAll] at holds
    rw [codeAll, List.length_append, ← Nat.add_assoc]
    exact (first holds.left).trans (inductionHypothesis others holds.right)

/-- A way through a statement is a way through its code. -/
theorem Passable.reaches (addressable : code.Addressable) (passable : statement.Passable)
    (holds : code.Holds address (statement.code context)) :
    code.Reaches address (address + (statement.code context).length) := by
  induction passable generalizing address with
  | expression expr => exact holds.reaches_of_plain (plain_expression expr)
  | declaration type name initial =>
    exact holds.reaches_of_plain (plain_declaration type name initial)
  | assignment target value => exact holds.reaches_of_plain (plain_assignment target value)
  | block _ inductionHypothesis => exact reaches_codeAll inductionHypothesis holds
  | @thenBranch thenBranch condition elseBranch _ inductionHypothesis =>
    cases elseBranch with
    | none =>
      have decided := holds.left.reaches_of_plain (condition.plain_code _)
      have passed := inductionHypothesis holds.right.tail
      simp only [length_oneWay, ← Nat.add_assoc]
      exact (decided.tail holds.right.flow_condition).trans passed
    | some elseBranch =>
      rw [code_twoWay] at holds
      have decided := holds.left.reaches_of_plain (condition.plain_code _)
      have branches := holds.right.tail
      have passed := inductionHypothesis branches.left
      have leap := branches.right.flow_jumpOver addressable (.inl rfl) (Nat.le_refl _)
      simp only [length_twoWay, ← Nat.add_assoc]
      exact ((decided.tail holds.right.flow_condition).trans passed).tail leap
  | @elseBranch elseBranch condition thenBranch _ inductionHypothesis =>
    rw [code_twoWay] at holds
    have decided := holds.left.reaches_of_plain (condition.plain_code _)
    have leap := holds.right.flow_jumpOver addressable (.inr rfl) (by simp)
    have passed := inductionHypothesis holds.right.tail.right.tail
    rw [← Nat.add_assoc] at leap
    simp only [length_twoWay, ← Nat.add_assoc]
    exact (decided.tail leap).trans passed
  | noElse condition thenBranch =>
    have decided := holds.left.reaches_of_plain (condition.plain_code _)
    have leap := holds.right.flow_jumpOver addressable (.inr rfl) (Nat.le_refl _)
    simp only [length_oneWay, ← Nat.add_assoc]
    exact decided.tail leap

theorem confines_codeAll (addressable : code.Addressable) {body : List Stmt}
    (each : ∀ statement ∈ body, ∀ {address}, statement.returns = true →
      code.Holds address (statement.code context) →
        code.Confines address (address + (statement.code context).length))
    (returns : anyReturns body = true) (holds : code.Holds address (codeAll context body)) :
    code.Confines address (address + (codeAll context body).length) := by
  induction body generalizing address with
  | nil => cases returns
  | cons statement rest inductionHypothesis =>
    obtain ⟨first, others⟩ := List.forall_mem_cons.mp each
    rw [codeAll] at holds
    rw [codeAll, List.length_append, ← Nat.add_assoc]
    rw [anyReturns, Bool.or_eq_true] at returns
    rcases returns with returns | returns
    · exact (first returns holds.left).mono (Nat.le_add_right _ _)
    · exact .behind addressable holds.left statement.jumpsWithin_code
        (inductionHypothesis others returns holds.right)

/-- The code of a statement that always returns is never left at its end. -/
theorem confines_of_returns (addressable : code.Addressable) (returns : statement.returns = true)
    (holds : code.Holds address (statement.code context)) :
    code.Confines address (address + (statement.code context).length) := by
  induction statement using Stmt.induction generalizing address with
  | expression | declaration | assignment | oneWay => cases returns
  | returning value =>
    cases value with
    | none => exact .at_return rfl holds
    | some expr =>
      have straight := straight_of_plain (expr.plain_code (context.tag "return"))
      have kept := Bytecode.Confines.at_return rfl holds.right
      rw [Stmt.code, List.length_append, ← Nat.add_assoc]
      exact .behind addressable holds.left straight.jumpsWithin kept
  | block body inductionHypothesis =>
    exact confines_codeAll addressable inductionHypothesis returns holds
  | twoWay condition thenBranch elseBranch thenHypothesis elseHypothesis =>
    obtain ⟨thenReturns, elseReturns⟩ := Bool.and_eq_true_iff.mp returns
    rw [code_twoWay] at holds
    have straight := straight_of_plain (condition.plain_code (context.tag "if"))
    have branches := holds.right.tail
    have thenKept := thenHypothesis thenReturns branches.left
    have elseKept := elseHypothesis elseReturns branches.right.tail
    simp only [length_twoWay, ← Nat.add_assoc]
    refine .behind addressable holds.left straight.jumpsWithin ?_
    exact .at_condition addressable holds.right (by simp) (thenKept.mono (by omega)) elseKept

end Stmt

/-- The code of a body ends with a return of its own, which control can reach from the beginning of
the body exactly if the statements of the body do not always return. -/
theorem end_reached_iff_not_returns {functions : Bindings FunctionDecl} {types : StructTypes}
    {function : FunctionDecl} {body : List Stmt} {code : Bytecode}
    (compiled : (BodyContext.forFunction functions types function).compileBody body = .ok code)
    (addressable : code.Addressable) :
    (∃ tag, code[code.size - 1]? = some (.bare .returnVoid tag)) ∧
      (code.Reaches 0 (code.size - 1) ↔ Stmt.anyReturns body = false) := by
  generalize BodyContext.forFunction functions types function = context at compiled
  obtain ⟨_, bodyCode⟩ := BodyContext.compileBody_ok compiled
  have holds : code.Holds 0 (context.bodyCode body) := by
    intro index instruction found
    rw [← bodyCode] at found
    simpa using found
  have last : code.size - 1 = 0 + (Stmt.code context (.block body)).length := by
    rw [← Array.length_toList, bodyCode, BodyContext.bodyCode, List.length_append,
      List.length_singleton, Nat.add_sub_cancel, Nat.zero_add, Stmt.code]
  rw [last]
  refine ⟨⟨_, holds.right.head⟩, ?_⟩
  constructor
  · intro reached
    by_contra passes
    have returns : (Stmt.block body).returns = true := eq_true_of_ne_false passes
    exact Nat.lt_irrefl _ (Stmt.confines_of_returns addressable returns holds.left _ reached)
  · intro passes
    have passable : (Stmt.block body).Passable := Stmt.returns_eq_false_iff.mp passes
    exact passable.reaches addressable holds.left

/-- A choice in which one branch returns, and the other one as well if it is to, with a statement
behind it. -/
def choosing (both : Bool) : List Stmt :=
  [.conditional (.identifier "first") (.returning (some (.literal (.int 1))))
      (if both then some (.block [.returning (some (.literal (.int 2)))]) else none),
    .expression (.literal (.int 3))]

/-- The end is out of reach, whatever stands before it, if both branches return, and in reach if one
is missing. -/
theorem choosing_reaches_end :
    ∃ code other, (BodyContext.forFunction {} ⟨{}⟩ ⟨"choose", "Int", [], []⟩).compileBody
        (choosing true) = .ok code ∧ code.Addressable ∧ ¬ code.Reaches 0 (code.size - 1) ∧
      (BodyContext.forFunction {} ⟨{}⟩ ⟨"choose", "Int", [], []⟩).compileBody
        (choosing false) = .ok other ∧ other.Addressable ∧ other.Reaches 0 (other.size - 1) := by
  have compiled : (BodyContext.forFunction {} ⟨{}⟩ ⟨"choose", "Int", [], []⟩).compileBody
      (choosing true) = .ok _ := rfl
  have otherCompiled : (BodyContext.forFunction {} ⟨{}⟩ ⟨"choose", "Int", [], []⟩).compileBody
      (choosing false) = .ok _ := rfl
  refine ⟨_, _, compiled, by decide, ?_, otherCompiled, by decide, ?_⟩
  · intro reached
    cases (end_reached_iff_not_returns compiled (by decide)).2.mp reached
  · exact (end_reached_iff_not_returns otherCompiled (by decide)).2.mpr rfl

end StackLang
