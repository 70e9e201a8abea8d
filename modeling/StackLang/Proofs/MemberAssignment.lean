import StackLang.Proofs.LexicalCalls
import StackLang.Proofs.PathCode
import StackLang.Proofs.Prototypes
import StackLang.Proofs.Segments
import StackLang.Proofs.WellFormed

/-!
# Assigning to a member is a functional update

An accepted program holds the code of each assignment in it (`Program.Segmented.includes`). From
every state in which a call can see a store (`SeesStore`), the code of an assignment to a member
first computes the value, as evaluating the expression does (`Session.evaluates`), and then assigns
it to the end of the path. The variable is read only then, so what computing the value has changed
in it is kept.
-/

namespace StackLang

/-- A statement stands in the body of a function of the program, or among the global statements if
no function encloses it. -/
def Program.Includes (program : Program) (enclosing : Option FunctionDecl) (statement : Stmt) :
    Prop :=
  ∃ outer, statement.Part outer ∧
    match enclosing with
    | none => outer ∈ program.globalStatements
    | some function => function ∈ program.functionDecls ∧ outer ∈ function.body

namespace Stmt

variable {context : BodyContext} {statement outer : Stmt}

theorem code_within_codeAll {body : List Stmt} (member : statement ∈ body) :
    statement.code context <:+: codeAll context body := by
  induction body with
  | nil => cases member
  | cons first rest inductionHypothesis =>
    rw [codeAll]
    rcases List.mem_cons.mp member with rfl | later
    · exact (List.prefix_append _ _).isInfix
    · exact (inductionHypothesis later).trans (List.suffix_append _ _).isInfix

/-- The code of a statement stands in the code of what it is a part of. -/
theorem Part.code_within (part : Part statement outer) :
    statement.code context <:+: outer.code context := by
  induction part with
  | self => exact List.infix_rfl
  | block member _ inductionHypothesis =>
    rw [code]
    exact inductionHypothesis.trans (code_within_codeAll member)
  | thenBranch condition elseBranch _ inductionHypothesis =>
    refine inductionHypothesis.trans ?_
    cases elseBranch with
    | none =>
      rw [code]
      exact ((List.suffix_cons _ _).trans (List.suffix_append _ _)).isInfix
    | some other =>
      rw [code]
      exact ((List.suffix_cons _ _).trans (List.suffix_append _ _)).isInfix.trans
        (List.prefix_append _ _).isInfix
  | elseBranch condition thenBranch _ inductionHypothesis =>
    refine inductionHypothesis.trans ?_
    rw [code]
    exact ((List.suffix_cons _ _).trans (List.suffix_append _ _)).isInfix

theorem Part.code_within_bodyCode (part : Part statement outer) {body : List Stmt}
    (member : outer ∈ body) : statement.code context <:+: context.bodyCode body :=
  part.code_within.trans ((code_within_codeAll member).trans (List.prefix_append _ _).isInfix)

theorem Part.legal (part : Part statement outer) (legal : outer.Legal context) :
    statement.Legal context := by
  induction part with
  | self => exact legal
  | block member _ inductionHypothesis =>
    cases legal with
    | block each => exact inductionHypothesis (each _ member)
  | thenBranch _ _ _ inductionHypothesis =>
    cases legal with
    | oneWay _ thenLegal => exact inductionHypothesis thenLegal
    | twoWay _ thenLegal _ => exact inductionHypothesis thenLegal
  | elseBranch _ _ _ inductionHypothesis =>
    cases legal with
    | twoWay _ _ elseLegal => exact inductionHypothesis elseLegal

end Stmt

theorem Bytecode.Holds.of_within {code : Bytecode} {address : Nat} {part whole : List Instruction}
    (holds : code.Holds address whole) (inside : part <:+: whole) :
    ∃ place, code.Holds place part := by
  obtain ⟨front, back, rfl⟩ := inside
  exact ⟨_, holds.left.right⟩

/-- The code of a statement stands in the code of a program that includes it, and it is legal. -/
theorem Program.Segmented.includes {program : Program} {types : StructTypes}
    {compiled : CompiledProgram} {segments : List Segment} {enclosing : Option FunctionDecl}
    {statement : Stmt} (segmented : program.Segmented types compiled segments)
    (included : program.Includes enclosing statement) :
    statement.Legal ⟨program.functions, types, enclosing⟩ ∧
      ∃ address, compiled.code.Holds address
        (statement.code ⟨program.functions, types, enclosing⟩) := by
  obtain ⟨outer, part, standing⟩ := included
  have owned : ∀ owner, owner ∈ program.functionDecls.map some ++ [none] →
      ∃ segment ∈ segments, segment.owner = owner := by
    intro owner listed
    rw [← segmented.owners] at listed
    exact List.mem_map.mp listed
  cases enclosing with
  | none =>
    obtain ⟨segment, member, unowned⟩ := owned none (by simp)
    obtain ⟨legal, code⟩ :=
      BodyContext.compileBody_ok (segmented.globals segment member unowned)
    exact ⟨part.legal (legal outer standing), (code ▸ segmented.holds member).of_within
      (part.code_within_bodyCode standing)⟩
  | some function =>
    obtain ⟨declared, inBody⟩ := standing
    obtain ⟨segment, member, owner⟩ := owned (some function) (by simp [declared])
    obtain ⟨accepted, code⟩ :=
      FunctionDecl.compile_ok (segmented.functions segment member function owner)
    exact ⟨part.legal (accepted.legal outer inBody), (code ▸ segmented.holds member).of_within
      (part.code_within_bodyCode inBody)⟩

namespace Machine

open Semantics

/-- A state in which some call sees a store while calls with the given variables wait for it, and
the stack is within its limit. -/
structure SeesStore (settings : Settings) (pending : List (Bindings Value)) (store : Store)
    (state : State) : Prop where
  busy : state.calls ≠ []
  limit_eq : state.stack.limit = settings.maxStackSize
  fits : state.stack.values.length ≤ settings.maxStackSize
  scopes_eq : state.scopes = .ofStore pending store
  place_eq : store.place pending = state.currentScope

/-- A name is read from the store, and the search for it ends. -/
theorem SeesStore.resolve_eq {settings : Settings} {pending : List (Bindings Value)}
    {store : Store} {state : State} (sees : SeesStore settings pending store state)
    (name : String) :
    state.scopes.resolve state.currentScope name = some (store.read name) := by
  rw [sees.scopes_eq, ← sees.place_eq, Scopes.resolve_ofStore]

/-- Whatever code a machine runs, it sees a store in all its states. -/
theorem Passes.seesStore {program : CompiledProgram} {settings : Settings} {prior state : State}
    {outer : CallStack} (rested : Rested program settings prior)
    (passes : Passes program settings prior outer state) (busy : state.calls ≠ []) :
    ∃ pending store, SeesStore settings pending store state := by
  obtain ⟨bottom, called, framed⟩ := passes.framed rested.limit_eq busy
  obtain ⟨globals, locals, scopes_eq⟩ := Scopes.eq_nested framed.parents_eq
  have length_eq : locals.length = called.length := by
    have size_eq := framed.size_eq
    rw [scopes_eq, Scopes.size_nested] at size_eq
    omega
  cases called with
  | nil =>
    have global : state.currentScope = .global := by
      have calls_eq : state.calls = outer := framed.calls_eq
      rcases bottom with rfl | rfl
      · exact absurd calls_eq busy
      · rw [State.currentScope, calls_eq]
        rfl
    refine ⟨locals, ⟨globals, none⟩, busy, framed.limit_eq, framed.fits, ?_, global.symm⟩
    rw [scopes_eq, Scopes.ofStore, Option.toList_none, List.append_nil]
  | cons frame rest =>
    have nonempty : locals ≠ [] := by
      rintro rfl
      cases length_eq
    obtain ⟨pending, own, rfl⟩ := (List.eq_nil_or_concat locals).resolve_left nonempty
    have innermost : state.currentScope = frame.scope := by
      rw [State.currentScope, framed.calls_eq]
      rfl
    have count : pending.length = rest.length := by simpa using length_eq
    rw [List.concat_eq_append] at scopes_eq
    refine ⟨pending, ⟨globals, some own⟩, busy, framed.limit_eq, framed.fits, scopes_eq, ?_⟩
    rw [innermost, framed.innermost_owns, ← count]
    rfl

/-- The value of an expression has been computed and lies above the values that waited. -/
structure Evaluated (settings : Settings) (pending : List (Bindings Value)) (store : Store)
    (value : Value) (address : Nat) (before state : State) : Prop
    extends SeesStore settings pending store state where
  pc_eq : state.pc = address
  values_eq : state.stack.values = value :: before.stack.values
  calls_eq : state.calls = before.calls

section Views

variable {session : Session} {pending : List (Bindings Value)} {store : Store} {state : State}

/-- What a state sees is shown by its innermost call. -/
theorem SeesStore.shows {frame : Frame} {callers : CallStack}
    (sees : SeesStore session.settings pending store state)
    (limit_eq : session.limit = session.settings.maxStackSize)
    (calls_eq : state.calls = frame :: callers) (stretch : Stretch) :
    (⟨frame, callers, pending, [], stretch⟩ : Activation session).Shows
      state.pc state.stack.values store state where
  pc_eq := rfl
  calls_eq := calls_eq
  limit_eq := sees.limit_eq.trans limit_eq.symm
  values_eq := rfl
  fits := limit_eq ▸ sees.fits
  above := List.nil_suffix
  scopes_eq := sees.scopes_eq
  place_eq := by
    rw [sees.place_eq, State.currentScope, calls_eq]
    rfl

/-- A call that shows a value above those that waited has evaluated it. -/
theorem Activation.Shows.evaluated {activation : Activation session} {address : Nat}
    {value : Value} {before : State}
    (shown : activation.Shows address (value :: before.stack.values) store state)
    (limit_eq : session.limit = session.settings.maxStackSize)
    (calls_eq : before.calls = activation.calls) :
    Evaluated session.settings activation.pending store value address before state where
  busy := shown.busy
  limit_eq := shown.limit_eq.trans limit_eq
  fits := by
    rw [shown.values_eq, ← limit_eq]
    exact shown.fits
  scopes_eq := shown.scopes_eq
  place_eq := shown.currentScope.symm
  pc_eq := shown.pc_eq
  values_eq := shown.values_eq
  calls_eq := shown.calls_eq.trans calls_eq.symm

end Views

/-- The code of a legal expression runs as the expression is evaluated, unless the stack overflows.
Up to there the machine carries out a stretch of the code that holds it. -/
theorem Session.evaluates {session : Session} {stretch : Stretch}
    {enclosing : Option FunctionDecl} {expr : Expr} {tag : String}
    {pending : List (Bindings Value)} {store : Store} {state : State}
    (limit_eq : session.limit = session.settings.maxStackSize)
    (legal : expr.Legal (session.context enclosing))
    (sees : SeesStore session.settings pending store state)
    (holds : session.compiled.code.HoldsWithin stretch state.pc (expr.code tag)) :
    (∃ final, Runs session.compiled session.settings stretch state.calls state
        (.error (.stackOverflow session.settings.maxStackSize) final)) ∨
      match evalExpr (invoke session.program.functions session.types session.settings
          (session.settings.maxCallDepth - state.calls.depth)) expr store with
      | .error fault _ => ∃ final, Runs session.compiled session.settings stretch state.calls state
          (.error fault.cause final)
      | .ok value after => ∃ evaluated,
          Runs session.compiled session.settings stretch state.calls state (.ok () evaluated) ∧
            Evaluated session.settings pending after value (state.pc + (expr.code tag).length)
              state evaluated := by
  obtain ⟨frame, callers, calls_eq⟩ := List.exists_cons_of_ne_nil sees.busy
  let activation : Activation session := ⟨frame, callers, pending, [], stretch⟩
  have occupied : ∀ seen, activation.Sees seen → Occupied stretch state.calls seen := by
    intro seen sees
    rw [calls_eq]
    exact sees.occupied
  have remaining_eq : activation.remaining =
      session.settings.maxCallDepth - state.calls.depth := by
    rw [CallStack.depth, calls_eq]
    rfl
  have computed := Activation.computes_of_legal (session.callsSimulated activation.remaining)
    legal state.pc state.stack.values store state holds (sees.shows limit_eq calls_eq stretch)
  rw [remaining_eq] at computed
  have cuts : Bounded.Cuts session.limit
      (Bounded.evalExpr session.limit
        (session.callee (session.settings.maxCallDepth - state.calls.depth)) expr
        state.stack.values.length) _ :=
    Bounded.evalExpr_cuts (Bounded.invoke_cuts _) expr _
  unfold Activation.Simulates at computed
  rcases cuts store with same | ⟨active, after, overflowed⟩
  · right
    rw [same] at computed
    split at computed
    · next value after evaluated =>
      obtain ⟨count, next, _, walk, shownNext⟩ := computed
      rw [evaluated]
      exact ⟨next, ⟨count, walk.mono occupied⟩, shownNext.evaluated limit_eq calls_eq⟩
    · next fault after evaluated =>
      obtain ⟨count, next, _, walk, _⟩ := computed
      rw [evaluated]
      exact ⟨next, count, walk.mono occupied⟩
  · left
    rw [overflowed] at computed
    obtain ⟨count, next, _, walk, _⟩ := computed
    rw [← limit_eq]
    exact ⟨next, count, walk.mono occupied⟩

/-- An assignment to a member is a functional update. Its code stands in every accepted program that
includes it. From any state that sees a store, unless the stack overflows while the code is carried
out, the value is computed as its expression is evaluated; then the nearest variable at the root
gets its value of that moment with the field replaced, or the first offence along the path stops the
run. Up to there control is in the code of the assignment, or in a call that was made from it. -/
theorem member_assignment_is_update {program : Program} {compiled : CompiledProgram}
    {enclosing : Option FunctionDecl} {target expr : Expr} {root : String} {members : List String}
    (accepted : program.compile = .ok compiled) (addressable : compiled.Addressable)
    (included : program.Includes enclosing (.assignment target expr))
    (path : target.path = .ok (root, members)) (nonempty : members ≠ []) :
    ∃ types, StructTypes.ofProgram program = .ok types ∧
      let context : BodyContext := ⟨program.functions, types, enclosing⟩
      let code := Stmt.code context (.assignment target expr)
      (∃ address, compiled.code.Holds address code) ∧
      ∀ settings pending store state, SeesStore settings pending store state →
        compiled.code.Holds state.pc code →
        let stretch : Stretch := ⟨state.pc, state.pc + code.length⟩
        (∃ final, Runs compiled settings stretch state.calls state
          (.error (.stackOverflow settings.maxStackSize) final)) ∨
        match evalExpr (invoke program.functions types settings
            (settings.maxCallDepth - state.calls.depth)) expr store with
        | .error fault _ => ∃ final, Runs compiled settings stretch state.calls state
            (.error fault.cause final)
        | .ok value after => ∃ evaluated,
            Runs compiled settings stretch state.calls state (.ok () evaluated) ∧
            Evaluated settings pending after value
              (state.pc + (expr.code (context.tag "assign")).length) state evaluated ∧
            Assigns compiled settings stretch root members value state.stack.values
              (state.pc + code.length) evaluated := by
  obtain ⟨types, placed⟩ := Program.placed_of_compile accepted
  obtain ⟨sameTypes, segments, segmented⟩ := Program.segmented_of_compile accepted
  cases placed.resolved.symm.trans segmented.resolved
  obtain ⟨legal, standing⟩ := segmented.includes included
  refine ⟨types, placed.resolved, standing, ?_⟩
  intro settings pending store state sees holds
  let session : Session :=
    ⟨program, types, compiled, settings, settings.maxStackSize, placed, addressable⟩
  have exprLegal : expr.Legal (session.context enclosing) := by
    cases legal with
    | assignment _ exprLegal => exact exprLegal
  rw [Stmt.code, Stmt.storeCode, path] at holds ⊢
  dsimp only at holds ⊢
  have within : compiled.code.HoldsWithin ⟨state.pc, _⟩ state.pc _ :=
    ⟨holds, Nat.le_refl _, Nat.le_refl _⟩
  rcases session.evaluates rfl exprLegal sees within.left with overflowed | evaluates
  · exact .inl overflowed
  · split at evaluates
    · next fault after failed =>
      right
      rw [show evalExpr _ expr store = _ from failed]
      exact evaluates
    · next value after succeeded =>
      obtain ⟨evaluated, runs, computed⟩ := evaluates
      have storing := within.right
      rw [← computed.pc_eq] at storing
      have ends : evaluated.scopes.resolve evaluated.currentScope root ≠ none := by
        rw [computed.resolve_eq]
        exact Option.some_ne_none _
      rcases storePath_assigns nonempty computed.busy computed.values_eq ends storing with
        ⟨final, overflowed⟩ | assigns
      · left
        rw [computed.limit_eq, computed.calls_eq] at overflowed
        exact ⟨final, runs.trans overflowed⟩
      · right
        rw [show evalExpr _ expr store = _ from succeeded]
        rw [computed.pc_eq, Nat.add_assoc, ← List.length_append] at assigns
        exact ⟨evaluated, runs, computed, assigns⟩

/-- The assignment of `tallying`: what it stores is computed by a call that changes another field of
the same variable. -/
def tallyingAssignment : Stmt :=
  .assignment (.member (.member (.identifier "held") "inner") "count") (.call "raise" [])

/-- The start function of `tallying`. -/
def tallyingMain : FunctionDecl where
  name := "main"
  returnType := "void"
  parameters := []
  body := [tallyingAssignment]

/-- A program that assigns to a field of a struct in a global variable. -/
def tallying : Program where
  items := [
    .struct ⟨"Inner", [⟨"Int", "count"⟩]⟩,
    .struct ⟨"Outer", [⟨"Inner", "inner"⟩, ⟨"Bool", "flag"⟩]⟩,
    .global (.declaration "Outer" "held" none),
    .function ⟨"raise", "Int", [], [
      .assignment (.member (.identifier "held") "flag") (.literal (.bool true)),
      .returning (some (.literal (.int 7)))]⟩,
    .function tallyingMain]

/-- A struct of the inner type of `tallying`. -/
def tallyingInner : Record := .ofList [("count", .int 0)]

/-- A struct of the outer type of `tallying`, with a value of the field `flag`. -/
def tallyingOuter (flag : Bool) : Record :=
  .ofList [("inner", .struct tallyingInner), ("flag", .bool flag)]

/-- The struct types of `tallying`. -/
def tallyingTypes : StructTypes :=
  ⟨.ofList [("Inner", tallyingInner), ("Outer", tallyingOuter false)]⟩

/-- The variables of `tallying` in its start function, with a value of the field `flag`. -/
def tallyingStore (flag : Bool) : Store where
  globals := .ofList [("held", .struct (tallyingOuter flag))]
  locals := some {}

/-- The start function of `tallying` at an address, with a value waiting on the stack. -/
def tallyingAt (address : Nat) : State where
  pc := address
  stack := ⟨4096, [.int 5], 1, rfl⟩
  calls := [⟨"main", ⟨1⟩, 0⟩]
  scopes := .ofStore [] (tallyingStore false)

open StructTypes in
theorem tallying_types : ofProgram tallying = .ok tallyingTypes := by
  have inner : build tallying.structs ⟨"Inner", [⟨"Int", "count"⟩]⟩ {} =
      .ok (.ofList [("Inner", tallyingInner)]) := by
    unfold build
    rw [fillIn_kind rfl, fillIn]
    rfl
  have outer : build tallying.structs ⟨"Outer", [⟨"Inner", "inner"⟩, ⟨"Bool", "flag"⟩]⟩
      (.ofList [("Inner", tallyingInner)]) = .ok tallyingTypes.prototypes := by
    unfold build
    rw [fillIn_kept rfl rfl, fillIn_kind rfl, fillIn]
    rfl
  have latest_eq : latest tallying = [⟨"Inner", [⟨"Int", "count"⟩]⟩,
      ⟨"Outer", [⟨"Inner", "inner"⟩, ⟨"Bool", "flag"⟩]⟩] := rfl
  unfold latest at latest_eq
  simp only [ofProgram, latest_eq, buildAll, inner, outer]

/-- Where the code of the assignment stands, and the machine after it. -/
theorem tallying_compiles : ∃ compiled, tallying.compile = .ok compiled ∧ compiled.Addressable ∧
    compiled.code.Holds 7
      (tallyingAssignment.code ⟨tallying.functions, tallyingTypes, some tallyingMain⟩) ∧
    ∃ final, advance compiled {} 13 (tallyingAt 7) = some final ∧ final.pc = 14 ∧
      final.calls = (tallyingAt 7).calls := by
  unfold Program.compile Program.compilation
  rw [tallying_types]
  refine ⟨_, rfl, by decide +kernel, ?_, _, rfl, rfl, rfl⟩
  intro index instruction found
  match index with
  | 0 | 1 | 2 | 3 | 4 | 5 | 6 => exact found
  | _ + 7 => cases found

theorem tallying_evaluates :
    evalExpr (invoke tallying.functions tallyingTypes {} 255) (.call "raise" [])
      (tallyingStore false) = .ok (.int 7) (tallyingStore true) := rfl

/-- The assignment stores what the call gave in the field, and keeps what the call has changed. The
stack does not overflow while its code is carried out. -/
theorem tallying_assignment_is_update :
    ∃ compiled, tallying.compile = .ok compiled ∧ compiled.Addressable ∧
      tallying.Includes (some tallyingMain) tallyingAssignment ∧
      SeesStore {} [] (tallyingStore false) (tallyingAt 7) ∧
      let runs := Runs compiled {} ⟨7, 14⟩ (tallyingAt 7).calls (tallyingAt 7)
      (¬ ∃ final, runs (.error (.stackOverflow 4096) final)) ∧
        ∃ changed final, runs (.ok () final) ∧
          final.scopes.resolve final.currentScope "held" = some (.ok changed) ∧
          changed.follow ["inner", "count"] = .ok (.int 7) ∧
          changed.follow ["flag"] = .ok (.bool true) ∧ final.stack.values = [.int 5] := by
  obtain ⟨compiled, accepted, addressable, standing, left, advanced, left_pc, left_calls⟩ :=
    tallying_compiles
  have included : tallying.Includes (some tallyingMain) tallyingAssignment :=
    ⟨tallyingAssignment, .self _, by simp [tallying, Program.functionDecls], by simp [tallyingMain]⟩
  have path : (Expr.chain "held" ["inner", "count"]).path = .ok ("held", ["inner", "count"]) := rfl
  obtain ⟨types, resolved, _, updates⟩ :=
    member_assignment_is_update accepted addressable included path (by decide)
  cases resolved.symm.trans tallying_types
  have sees : SeesStore {} [] (tallyingStore false) (tallyingAt 7) :=
    ⟨List.cons_ne_nil _ _, rfl, (by decide : 1 ≤ 4096), rfl, rfl⟩
  have assigned := updates {} [] (tallyingStore false) (tallyingAt 7) sees standing
  have fits : ¬ ∃ final, Runs compiled {} ⟨7, 14⟩ (tallyingAt 7).calls (tallyingAt 7)
      (.error (.stackOverflow 4096) final) := by
    rintro ⟨final, overflowed⟩
    exact overflowed.not_left advanced left_calls (Nat.le_of_eq left_pc.symm)
  refine ⟨compiled, accepted, addressable, included, sees, fits, ?_⟩
  have remaining : ({} : Settings).maxCallDepth - (tallyingAt 7).calls.depth = 255 := rfl
  have stored := assigned.resolve_left fits
  rw [remaining, tallying_evaluates] at stored
  obtain ⟨evaluated, runs, computed, assigns⟩ := stored
  have read := computed.resolve_eq "held"
  obtain ⟨place, whole, changed, final, onward, replaced, _, values_eq, _⟩ :=
    assigns.succeeds ⟨_, read, _, rfl⟩
  obtain ⟨same, nearest, held⟩ := Scopes.resolve_eq_ok_iff.mp read
  cases replaced.nearest.symm.trans nearest
  cases replaced.held.symm.trans held
  rw [computed.calls_eq] at onward
  refine ⟨changed, final, runs.trans onward, replaced.resolves, replaced.reads, ?_, values_eq⟩
  exact replaced.fields ["flag"] (by decide) (by decide)

end Machine

end StackLang
