import Mathlib.Data.List.Basic
import StackLang.Proofs.Emission
import StackLang.Proofs.PlainCode

/-!
# Where instructions come from

The code of a statement is put together from the code of the statements in it. `Stmt.Stands` says
where each of them begins, and an instruction belongs to the innermost one whose code it is in,
blocks apart (`Stmt.Owns`). Every instruction is found in this way (`Stmt.originates_code`), and it
has the tag of the statement that it belongs to. So what is emitted for a statement is known up to
the tags, whatever was emitted before (`emission_is_compositional`).
-/

namespace StackLang

theorem getElem?_append_cons_cases {α : Type} {front rest : List α} {middle found : α} {index : Nat}
    (present : (front ++ middle :: rest)[index]? = some found) :
    front[index]? = some found ∨ (index = front.length ∧ found = middle) ∨
      ∃ place, index = front.length + 1 + place ∧ rest[place]? = some found := by
  rcases Nat.lt_or_ge index front.length with before | behind
  · rw [List.getElem?_append_left before] at present
    exact .inl present
  · obtain ⟨distance, rfl⟩ := Nat.exists_eq_add_of_le behind
    rw [List.getElem?_append_right behind, Nat.add_sub_cancel_left] at present
    cases distance with
    | zero =>
      cases present
      exact .inr (.inl ⟨rfl, rfl⟩)
    | succ place => exact .inr (.inr ⟨place, by omega, present⟩)

namespace Stmt

/-- The word for a statement in the tags of its instructions. A block has none of its own. -/
def construct? : Stmt → Option String
  | .expression _ => some "expr"
  | .declaration _ _ _ => some "decl"
  | .assignment _ _ => some "assign"
  | .returning _ => some "return"
  | .block _ => none
  | .conditional _ _ _ => some "if"

/-- The code of a part of a statement begins at an offset in the code of the statement. -/
inductive Stands (context : BodyContext) (part : Stmt) : Nat → Stmt → Prop where
  | self : Stands context part 0 part
  | block {offset : Nat} {statement : Stmt} (front back : List Stmt)
      (inside : Stands context part offset statement) :
      Stands context part ((codeAll context front).length + offset)
        (.block (front ++ statement :: back))
  | thenBranch {offset : Nat} {thenBranch : Stmt} (condition : Expr) (elseBranch : Option Stmt)
      (inside : Stands context part offset thenBranch) :
      Stands context part ((condition.code (context.tag "if")).length + 1 + offset)
        (.conditional condition thenBranch elseBranch)
  | elseBranch {offset : Nat} {elseBranch : Stmt} (condition : Expr) (thenBranch : Stmt)
      (inside : Stands context part offset elseBranch) :
      Stands context part ((condition.code (context.tag "if")).length + 1 +
        (code context thenBranch).length + 1 + offset)
        (.conditional condition thenBranch (some elseBranch))

/-- The instructions that a statement has besides those of the statements inside. -/
def ownCode (context : BodyContext) : Stmt → List Instruction
  | .block _ => []
  | .conditional condition thenBranch none =>
    let tag := context.tag "if"
    condition.code tag ++ [.jumpOver .jumpIfFalse (code context thenBranch).length tag]
  | .conditional condition thenBranch (some elseBranch) =>
    let tag := context.tag "if"
    condition.code tag ++ [.jumpOver .jumpIfFalse ((code context thenBranch).length + 1) tag,
      .jumpOver .jump (code context elseBranch).length tag]
  | statement => code context statement

/-- The instruction at an index of the code of a statement is its own: it is in the code of no other
statement inside, blocks apart. -/
structure Owns (context : BodyContext) (statement : Stmt) (index : Nat) : Prop where
  inside : index < (code context statement).length
  alone : ∀ inner offset, Stands context inner offset statement → inner.construct?.isSome →
    offset ≤ index → index < offset + (code context inner).length → inner = statement

/-- The instruction at an index of the code of a statement belongs to a part of the statement. -/
def Originates (context : BodyContext) (statement : Stmt) (index : Nat)
    (instruction : Instruction) : Prop :=
  ∃ part offset place, Stands context part offset statement ∧ index = offset + place ∧
    Owns context part place ∧ instruction ∈ ownCode context part

/-- The tag of an instruction, at an index of the code of a statement, names the statement that the
instruction belongs to. -/
def Attributed (context : BodyContext) (statement : Stmt) (index : Nat) (tag : String) : Prop :=
  ∃ part offset place construct, Stands context part offset statement ∧ index = offset + place ∧
    Owns context part place ∧ part.construct? = some construct ∧ tag = context.tag construct

variable {context : BodyContext} {statement : Stmt} {index : Nat}
  {instruction : Instruction}

theorem codeAll_eq_flatMap (body : List Stmt) :
    codeAll context body = body.flatMap (code context) := by
  induction body with
  | nil => rfl
  | cons statement rest inductionHypothesis =>
    rw [codeAll, inductionHypothesis, List.flatMap_cons]

theorem codeAll_append (front back : List Stmt) :
    codeAll context (front ++ back) = codeAll context front ++ codeAll context back := by
  simp only [codeAll_eq_flatMap, List.flatMap_append]

/-- A part of a statement ends where the statement does or before. -/
theorem Stands.stop_le {part : Stmt} {offset : Nat}
    (stands : Stands context part offset statement) :
    offset + (code context part).length ≤ (code context statement).length := by
  induction stands with
  | self => omega
  | block front back _ inductionHypothesis =>
    rw [code, codeAll_append, codeAll, List.length_append, List.length_append]
    omega
  | thenBranch condition elseBranch _ inductionHypothesis =>
    cases elseBranch with
    | none =>
      rw [length_oneWay]
      omega
    | some elseBranch =>
      rw [length_twoWay]
      omega
  | elseBranch condition thenBranch _ inductionHypothesis =>
    rw [length_twoWay]
    omega

namespace Originates

theorem own (owns : Owns context statement index)
    (member : instruction ∈ ownCode context statement) :
    Originates context statement index instruction :=
  ⟨statement, 0, index, .self, (Nat.zero_add index).symm, owns, member⟩

theorem inBlock (front back : List Stmt)
    (originates : Originates context statement index instruction) :
    Originates context (.block (front ++ statement :: back))
      ((codeAll context front).length + index) instruction := by
  obtain ⟨part, offset, place, stands, rfl, rest⟩ := originates
  exact ⟨part, _, place, .block front back stands, (Nat.add_assoc _ _ _).symm, rest⟩

theorem inThenBranch (condition : Expr) (elseBranch : Option Stmt)
    (originates : Originates context statement index instruction) :
    Originates context (.conditional condition statement elseBranch)
      ((condition.code (context.tag "if")).length + 1 + index) instruction := by
  obtain ⟨part, offset, place, stands, rfl, rest⟩ := originates
  exact ⟨part, _, place, .thenBranch condition elseBranch stands, (Nat.add_assoc _ _ _).symm, rest⟩

theorem inElseBranch (condition : Expr) (thenBranch : Stmt)
    (originates : Originates context statement index instruction) :
    Originates context (.conditional condition thenBranch (some statement))
      ((condition.code (context.tag "if")).length + 1 + (code context thenBranch).length + 1 +
        index) instruction := by
  obtain ⟨part, offset, place, stands, rfl, rest⟩ := originates
  exact ⟨part, _, place, .elseBranch condition thenBranch stands, (Nat.add_assoc _ _ _).symm, rest⟩

end Originates

/-- An instruction in the code of statements is in the code of one of them. -/
theorem exists_of_codeAll {body : List Stmt}
    (found : (codeAll context body)[index]? = some instruction) :
    ∃ front statement back place, body = front ++ statement :: back ∧
      index = (codeAll context front).length + place ∧
      (code context statement)[place]? = some instruction := by
  induction body generalizing index with
  | nil => cases found
  | cons first rest inductionHypothesis =>
    rw [codeAll] at found
    rcases Nat.lt_or_ge index (code context first).length with here | behind
    · rw [List.getElem?_append_left here] at found
      exact ⟨[], first, rest, index, rfl, (Nat.zero_add index).symm, found⟩
    · rw [List.getElem?_append_right behind] at found
      obtain ⟨front, statement, back, place, rfl, position, found⟩ := inductionHypothesis found
      refine ⟨first :: front, statement, back, place, rfl, ?_, found⟩
      rw [codeAll, List.length_append]
      omega

/-- A statement without other statements inside has only instructions of its own. -/
theorem originates_simple
    (simple : ∀ inner offset, Stands context inner offset statement → inner = statement)
    (whole : ownCode context statement = code context statement)
    (found : (code context statement)[index]? = some instruction) :
    Originates context statement index instruction := by
  refine .own ⟨(List.getElem?_eq_some_iff.mp found).1, ?_⟩ (whole ▸ List.mem_of_getElem? found)
  exact fun inner offset stands _ _ _ => simple inner offset stands

/-- The code of the condition and the jump behind it belong to the conditional. -/
theorem owns_condition (condition : Expr) (thenBranch : Stmt) (elseBranch : Option Stmt)
    (before : index ≤ (condition.code (context.tag "if")).length) :
    Owns context (.conditional condition thenBranch elseBranch) index where
  inside := by
    cases elseBranch with
    | none =>
      rw [length_oneWay]
      omega
    | some elseBranch =>
      rw [length_twoWay]
      omega
  alone := by
    intro inner offset stands _ started _
    cases stands with
    | self => rfl
    | thenBranch => omega
    | elseBranch => omega

/-- The jump over the else branch belongs to the conditional. -/
theorem owns_jump (condition : Expr) (thenBranch elseBranch : Stmt) :
    Owns context (.conditional condition thenBranch (some elseBranch))
      ((condition.code (context.tag "if")).length + 1 + (code context thenBranch).length) where
  inside := by
    rw [length_twoWay]
    omega
  alone := by
    intro inner offset stands _ started stopped
    -- What is inside the then branch stops before the jump, and the else branch starts behind it.
    cases stands with
    | self => rfl
    | thenBranch _ _ inside =>
      have stop := inside.stop_le
      omega
    | elseBranch => omega

/-- Every instruction in the code of a statement belongs to a part of it. -/
theorem originates_code (found : (code context statement)[index]? = some instruction) :
    Originates context statement index instruction := by
  induction statement using Stmt.induction generalizing index with
  | expression | declaration | assignment | returning =>
    refine originates_simple ?_ rfl found
    rintro inner offset ⟨⟩
    rfl
  | block body bodyHypothesis =>
    obtain ⟨front, statement, back, place, rfl, rfl, inStatement⟩ := exists_of_codeAll found
    exact (bodyHypothesis statement (by simp) inStatement).inBlock front back
  | oneWay condition thenBranch thenHypothesis =>
    rcases getElem?_append_cons_cases found with inCondition | ⟨rfl, rfl⟩ | ⟨place, rfl, inThen⟩
    · have before := (List.getElem?_eq_some_iff.mp inCondition).1
      exact .own (owns_condition condition thenBranch none (Nat.le_of_lt before))
        (List.mem_append_left _ (List.mem_of_getElem? inCondition))
    · exact .own (owns_condition condition thenBranch none (Nat.le_refl _)) (by simp [ownCode])
    · exact (thenHypothesis inThen).inThenBranch condition none
  | twoWay condition thenBranch elseBranch thenHypothesis elseHypothesis =>
    rw [code_twoWay] at found
    rcases getElem?_append_cons_cases found with inCondition | ⟨rfl, rfl⟩ | ⟨place, rfl, behind⟩
    · have before := (List.getElem?_eq_some_iff.mp inCondition).1
      exact .own (owns_condition condition thenBranch _ (Nat.le_of_lt before))
        (List.mem_append_left _ (List.mem_of_getElem? inCondition))
    · exact .own (owns_condition condition thenBranch _ (Nat.le_refl _)) (by simp [ownCode])
    · rcases getElem?_append_cons_cases behind with inThen | ⟨rfl, rfl⟩ | ⟨place, rfl, inElse⟩
      · exact (thenHypothesis inThen).inThenBranch condition _
      · exact .own (owns_jump condition thenBranch elseBranch) (by simp [ownCode])
      · have originates := (elseHypothesis inElse).inElseBranch condition thenBranch
        rwa [Nat.add_assoc _ _ place, Nat.add_assoc, ← Nat.add_assoc _ 1] at originates

theorem tag_returning (value : Option Expr) :
    ∀ instruction ∈ code context (.returning value), instruction.tag = context.tag "return" := by
  cases value with
  | none => exact List.forall_mem_singleton.mpr rfl
  | some expr =>
    refine List.forall_mem_append.mpr ⟨?_, List.forall_mem_singleton.mpr rfl⟩
    exact fun instruction member => (expr.plain_code _ instruction member).tagged

/-- Besides the code of its condition, a conditional has jumps of its own. -/
theorem ownCode_conditional {condition : Expr} {thenBranch : Stmt} {elseBranch : Option Stmt}
    (member : instruction ∈ ownCode context (.conditional condition thenBranch elseBranch)) :
    instruction ∈ condition.code (context.tag "if") ∨
      ∃ opcode count, (opcode = .jump ∨ opcode = .jumpIfFalse) ∧
        instruction = .jumpOver opcode count (context.tag "if") := by
  cases elseBranch with
  | none =>
    refine (List.mem_append.mp member).imp_right fun jump => ?_
    exact ⟨_, _, .inr rfl, List.mem_singleton.mp jump⟩
  | some elseBranch =>
    refine (List.mem_append.mp member).imp_right fun jump => ?_
    rcases List.mem_cons.mp jump with overThen | overElse
    · exact ⟨_, _, .inr rfl, overThen⟩
    · exact ⟨_, _, .inl rfl, List.mem_singleton.mp overElse⟩

/-- The instructions that are a statement's own have its tag. -/
theorem tag_ownCode (member : instruction ∈ ownCode context statement) :
    ∃ construct, statement.construct? = some construct ∧
      instruction.tag = context.tag construct := by
  cases statement with
  | expression expr => exact ⟨_, rfl, (plain_expression expr _ member).tagged⟩
  | declaration type name initial =>
    exact ⟨_, rfl, (plain_declaration type name initial _ member).tagged⟩
  | assignment target value => exact ⟨_, rfl, (plain_assignment target value _ member).tagged⟩
  | returning value => exact ⟨_, rfl, tag_returning value _ member⟩
  | block body => cases member
  | conditional condition thenBranch elseBranch =>
    refine ⟨_, rfl, ?_⟩
    rcases ownCode_conditional member with inCondition | ⟨_, _, _, rfl⟩
    · exact (condition.plain_code _ _ inCondition).tagged
    · rfl

theorem Originates.attributed (originates : Originates context statement index instruction) :
    Attributed context statement index instruction.tag := by
  obtain ⟨part, offset, place, stands, position, owns, member⟩ := originates
  obtain ⟨construct, isConstruct, tagged⟩ := tag_ownCode member
  exact ⟨part, offset, place, construct, stands, position, owns, isConstruct, tagged⟩

/-- Code for statements that is composed from the code of their parts: that of a block is the code
of its statements one after the other, and a jump is as long as the part it passes over. -/
structure Composed (context : BodyContext) (code : Stmt → List Instruction) : Prop where
  block : ∀ body, code (.block body) = body.flatMap code
  oneWay : ∀ condition thenBranch, code (.conditional condition thenBranch none) =
    condition.code (context.tag "if") ++
      [.jumpOver .jumpIfFalse (code thenBranch).length (context.tag "if")] ++ code thenBranch
  twoWay : ∀ condition thenBranch elseBranch,
    code (.conditional condition thenBranch (some elseBranch)) =
      condition.code (context.tag "if") ++
        [.jumpOver .jumpIfFalse ((code thenBranch).length + 1) (context.tag "if")] ++
          code thenBranch ++ [.jumpOver .jump (code elseBranch).length (context.tag "if")] ++
            code elseBranch

theorem composed_code (context : BodyContext) : Composed context (code context) where
  block := by
    intro body
    rw [code, codeAll_eq_flatMap]
  oneWay := by
    intro condition thenBranch
    simp [code]
  twoWay := by
    intro condition thenBranch elseBranch
    simp [code]

/-- Of the surroundings, the code of a statement depends on the program and on the name that the
tags begin with, and on nothing else of the function around it. -/
theorem code_congr {other : BodyContext} (sameFunctions : other.functions = context.functions)
    (sameTypes : other.types = context.types) (sameOwner : other.owner = context.owner) :
    code other statement = code context statement := by
  have sameTag (construct : String) : other.tag construct = context.tag construct := by
    rw [BodyContext.tag, sameOwner, BodyContext.tag]
  induction statement using Stmt.induction with
  | expression expr =>
    have sameValue : expr.hasValue other = expr.hasValue context := by
      cases expr <;> simp [Expr.hasValue, BodyContext.callHasValue, sameFunctions]
    rw [code, code, sameTag, sameValue]
  | declaration type name initial =>
    have sameInitial (tag : String) :
        initialCode other type tag initial = initialCode context type tag initial := by
      cases initial <;> simp [initialCode, sameTypes]
    rw [code, code, sameTag, sameInitial]
  | assignment target value => rw [code, code, sameTag]
  | returning value =>
    cases value with
    | none => rw [code, code, sameTag]
    | some expr => rw [code, code, sameTag]
  | block body bodyHypothesis =>
    rw [code, code, codeAll_eq_flatMap, codeAll_eq_flatMap]
    exact List.flatMap_congr bodyHypothesis
  | oneWay condition thenBranch thenHypothesis => rw [code, code, sameTag, thenHypothesis]
  | twoWay condition thenBranch elseBranch thenHypothesis elseHypothesis =>
    rw [code, code, sameTag, thenHypothesis, elseHypothesis]

end Stmt

/-- Whatever was emitted before and whatever the current tag is, a statement that is lowered changes
none of the instructions before and appends its code, which is composed from that of its parts and
depends on nothing but the statement, the program and the owner. Each instruction has the tag of the
statement that it belongs to. -/
theorem emission_is_compositional {context : BodyContext} {statement : Stmt}
    {emitter next : Emitter} (lowered : statement.lower context emitter = .ok next) :
    next.code.toList = emitter.code.toList ++ statement.code context ∧
      Stmt.Composed context (Stmt.code context) ∧
      (∀ other : BodyContext, other.functions = context.functions →
        other.types = context.types → other.owner = context.owner →
          statement.code other = statement.code context) ∧
      ∀ index instruction, next.code[emitter.code.size + index]? = some instruction →
        statement.Attributed context index instruction.tag := by
  obtain ⟨_, appended⟩ := Stmt.lower_ok lowered
  refine ⟨appended, Stmt.composed_code context, fun _ => Stmt.code_congr, ?_⟩
  intro index instruction found
  rw [← Array.getElem?_toList, appended, ← Array.length_toList,
    List.getElem?_append_right (Nat.le_add_right _ _), Nat.add_sub_cancel_left] at found
  exact (Stmt.originates_code found).attributed

/-- A choice with a choice in a block of its then branch. -/
def nestedChoice : Stmt :=
  .conditional (.identifier "first")
    (.block [.conditional (.identifier "second") (.expression (.call "act" [])) none])
    (some (.assignment (.identifier "target") (.literal (.int 1))))

/-- Each jump passes over the branch behind it, and the jump at the end of the then branch belongs
to the outer choice, although the last tag before it is that of a statement inside. -/
theorem nestedChoice_is_compositional :
    ∃ next, nestedChoice.lower (.forGlobals {} ⟨{}⟩)
        ⟨#[.bare .pop "f:expr"], "f:return"⟩ = .ok next ∧
      next.code.toList.map (fun instruction => (instruction.opcode, instruction.tag)) =
        [(.pop, "f:expr"), (.loadVar, "global:if"), (.jumpIfFalse, "global:if"),
          (.loadVar, "global:if"), (.jumpIfFalse, "global:if"), (.callFunc, "global:expr"),
          (.pop, "global:expr"), (.jump, "global:if"), (.loadConst, "global:assign"),
          (.storeVar, "global:assign")] ∧
      nestedChoice.Attributed (.forGlobals {} ⟨{}⟩) 6 "global:if" := by
  have lowered : nestedChoice.lower (.forGlobals {} ⟨{}⟩)
      ⟨#[.bare .pop "f:expr"], "f:return"⟩ = .ok _ := rfl
  obtain ⟨appended, _, _, attributed⟩ := emission_is_compositional lowered
  refine ⟨_, lowered, ?_, attributed 6 _ rfl⟩
  rw [appended]
  decide

end StackLang
