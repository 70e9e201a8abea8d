import StackLang.Lowering.Fragment
import StackLang.Proofs.TreeInduction

/-!
# Code without jumps and returns

The code of an expression, and the code that stores a value in a target, consists of instructions
that neither jump nor end a call and that all have the tag they were asked to have. Statements are
put together from such pieces, and what is known of control and of tags in the code of statements
rests on this.
-/

namespace StackLang

/-- Whether an opcode neither jumps nor ends a call. -/
def Opcode.isPlain : Opcode → Bool
  | .jump | .jumpIfFalse | .returnValue | .returnVoid => false
  | _ => true

namespace Instruction

/-- An instruction with the given tag that neither jumps nor ends a call. -/
structure Plain (tag : String) (instruction : Instruction) : Prop where
  opcode : instruction.opcode.isPlain = true
  tagged : instruction.tag = tag

theorem plain_loadPath (root : String) (members : List String) (tag : String) :
    ∀ instruction ∈ loadPath root members tag, instruction.Plain tag := by
  refine List.forall_mem_cons.mpr ⟨⟨rfl, rfl⟩, ?_⟩
  intro instruction member
  obtain ⟨name, _, rfl⟩ := List.mem_map.mp member
  exact ⟨rfl, rfl⟩

theorem plain_storePath (root tag : String) (members : List String) :
    ∀ instruction ∈ storePath root tag members, instruction.Plain tag := by
  induction members with
  | nil => exact List.forall_mem_singleton.mpr ⟨rfl, rfl⟩
  | cons name outer inductionHypothesis =>
    refine List.forall_mem_append.mpr ⟨plain_loadPath root _ tag, ?_⟩
    exact List.forall_mem_cons.mpr ⟨⟨rfl, rfl⟩, inductionHypothesis⟩

end Instruction

theorem Expr.plain_codeAll {tag : String} {exprs : List Expr}
    (each : ∀ expr ∈ exprs, ∀ instruction ∈ expr.code tag, instruction.Plain tag) :
    ∀ instruction ∈ codeAll tag exprs, instruction.Plain tag := by
  induction exprs with
  | nil => exact fun _ absent => absurd absent List.not_mem_nil
  | cons expr rest inductionHypothesis =>
    obtain ⟨first, others⟩ := List.forall_mem_cons.mp each
    exact List.forall_mem_append.mpr ⟨first, inductionHypothesis others⟩

/-- The code of an expression is plain. -/
theorem Expr.plain_code (expr : Expr) (tag : String) :
    ∀ instruction ∈ expr.code tag, instruction.Plain tag := by
  induction expr using Expr.induction with
  | literal value => exact List.forall_mem_singleton.mpr ⟨rfl, rfl⟩
  | identifier name => exact List.forall_mem_singleton.mpr ⟨rfl, rfl⟩
  | binary operator left right leftPlain rightPlain =>
    have operands := List.forall_mem_append.mpr ⟨leftPlain, rightPlain⟩
    cases operator with
    | evaluated operator =>
      exact List.forall_mem_append.mpr ⟨operands, List.forall_mem_singleton.mpr ⟨rfl, rfl⟩⟩
    | _ => exact operands
  | call callee arguments argumentsPlain =>
    exact List.forall_mem_append.mpr
      ⟨plain_codeAll argumentsPlain, List.forall_mem_singleton.mpr ⟨rfl, rfl⟩⟩
  | member object name objectPlain =>
    exact List.forall_mem_append.mpr ⟨objectPlain, List.forall_mem_singleton.mpr ⟨rfl, rfl⟩⟩

namespace Stmt

variable {context : BodyContext}

theorem plain_initialCode (type tag : String) (initial : Option Expr) :
    ∀ instruction ∈ initialCode context type tag initial, instruction.Plain tag := by
  cases initial with
  | some expr => exact expr.plain_code tag
  | none =>
    unfold initialCode
    cases context.types.defaultValue type with
    | error cause => exact fun _ absent => absurd absent List.not_mem_nil
    | ok value =>
      refine List.forall_mem_singleton.mpr ⟨?_, rfl⟩
      by_cases isStruct : value.isKind .struct = true <;> simp [isStruct, Opcode.isPlain]

theorem plain_storeCode (target : Expr) (tag : String) :
    ∀ instruction ∈ storeCode target tag, instruction.Plain tag := by
  unfold storeCode
  split
  · exact Instruction.plain_storePath _ tag _
  · exact fun _ absent => absurd absent List.not_mem_nil

theorem plain_expression (expr : Expr) :
    ∀ instruction ∈ code context (.expression expr), instruction.Plain (context.tag "expr") := by
  refine List.forall_mem_append.mpr ⟨expr.plain_code _, ?_⟩
  split
  · exact List.forall_mem_singleton.mpr ⟨rfl, rfl⟩
  · exact fun _ absent => absurd absent List.not_mem_nil

theorem plain_declaration (type name : String) (initial : Option Expr) :
    ∀ instruction ∈ code context (.declaration type name initial),
      instruction.Plain (context.tag "decl") :=
  List.forall_mem_append.mpr
    ⟨plain_initialCode type _ initial, List.forall_mem_singleton.mpr ⟨rfl, rfl⟩⟩

theorem plain_assignment (target value : Expr) :
    ∀ instruction ∈ code context (.assignment target value),
      instruction.Plain (context.tag "assign") :=
  List.forall_mem_append.mpr ⟨value.plain_code _, plain_storeCode target _⟩

theorem code_twoWay (condition : Expr) (thenBranch elseBranch : Stmt) :
    code context (.conditional condition thenBranch (some elseBranch)) =
      condition.code (context.tag "if") ++
        .jumpOver .jumpIfFalse ((code context thenBranch).length + 1) (context.tag "if") ::
          (code context thenBranch ++
            .jumpOver .jump (code context elseBranch).length (context.tag "if") ::
              code context elseBranch) := by
  simp [code]

theorem length_oneWay (condition : Expr) (thenBranch : Stmt) :
    (code context (.conditional condition thenBranch none)).length =
      (condition.code (context.tag "if")).length + 1 + (code context thenBranch).length := by
  simp only [code, List.length_append, List.length_cons]
  omega

theorem length_twoWay (condition : Expr) (thenBranch elseBranch : Stmt) :
    (code context (.conditional condition thenBranch (some elseBranch))).length =
      (condition.code (context.tag "if")).length + 1 + (code context thenBranch).length + 1 +
        (code context elseBranch).length := by
  simp only [code, List.length_append, List.length_cons]
  omega

end Stmt

end StackLang
