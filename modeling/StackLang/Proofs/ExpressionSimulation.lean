import StackLang.Proofs.InstructionRules

/-!
# The machine walks as expressions are evaluated

The code of a legal expression, started in a state that an activation shows, leaves the value of the
expression above the values that waited, or stops with the fault that its evaluation stops with. The
code that stores a value at the end of a path is treated here as well, since it loads the structs on
the path as an expression does. How calls are carried out is assumed (`Session.CallsSimulated`); the
assumption is discharged by induction on the number of calls that may become active.
-/

namespace StackLang

namespace Value

/-- The value at the end of a path of members. -/
def follow (whole : Value) : List String → Except RunError Value
  | [] => .ok whole
  | name :: others => do
    let record ← whole.asStruct
    let part ← Record.field record name
    part.follow others

theorem setPath_cons {whole part : Value} {record : Record} {name : String}
    (isStruct : whole.asStruct = .ok record) (hasField : Record.field record name = .ok part)
    (others : List String) (value : Value) :
    whole.setPath (name :: others) value =
      part.setPath others value >>= fun changed =>
        pure (.struct (record.insert name changed)) := by
  cases others with
  | nil =>
    show (whole.asStruct >>= _) = _
    rw [isStruct]
    rfl
  | cons second rest =>
    rw [setPath, isStruct]
    · show (Record.field record name >>= _) = _
      rw [hasField]
      rfl
    · simp

/-- Replacing a field at the end of a path is replacing the struct around it. -/
theorem setPath_concat (whole : Value) (outer : List String) (name : String) (value : Value) :
    whole.setPath (outer ++ [name]) value =
      whole.follow outer >>= fun part => part.asStruct >>= fun record =>
        whole.setPath outer (.struct (record.insert name value)) := by
  induction outer generalizing whole with
  | nil => rfl
  | cons first rest inductionHypothesis =>
    have longer : rest ++ [name] ≠ [] := by simp
    cases isStruct : whole.asStruct with
    | error cause =>
      rw [List.cons_append, setPath, follow, isStruct]
      · rfl
      · exact longer
    | ok record =>
      cases hasField : Record.field record first with
      | error cause =>
        rw [List.cons_append, setPath, follow, isStruct]
        · show (Record.field record first >>= _) = ((Record.field record first >>= _) >>= _)
          rw [hasField]
          rfl
        · exact longer
      | ok part =>
        have followed : whole.follow (first :: rest) = part.follow rest := by
          rw [follow, isStruct]
          show (Record.field record first >>= _) = _
          rw [hasField]
          rfl
        rw [List.cons_append, setPath_cons isStruct hasField, inductionHypothesis, followed]
        simp only [bind_assoc, setPath_cons isStruct hasField]

end Value

namespace Semantics

theorem lift_bind {α β : Type} (first : Except RunError α) (next : α → Except RunError β) :
    lift (first >>= next) = lift first >>= fun value => lift (next value) := by
  cases first <;> rfl

namespace Bounded

theorem assignPath_apply {members : List String} (nonempty : members.isEmpty = false)
    (limit height : Nat) (root : String) (value : Value) (store : Store) :
    assignPath limit height root members value store =
      (lift (store.read root) >>= fun whole => hold limit (height + 1) >>= fun _ =>
        lift (whole.setPath members value) >>= fun changed =>
          lift (store.write root changed) >>= set) store := by
  unfold assignPath
  rw [nonempty]
  rfl

/-- Storing at the end of a path loads the struct around the last member, stores the value in it and
goes on with the struct. The variable is read again for it, which gives the same. -/
theorem assignPath_concat (limit height : Nat) (root : String) (outer : List String)
    (name : String) (value : Value) (store : Store) :
    assignPath limit height root (outer ++ [name]) value store =
      ((lift (store.read root) >>= fun whole => hold limit (height + 1) >>= fun _ =>
          lift (whole.follow outer)) >>= fun part => lift part.asStruct >>= fun record =>
        assignPath limit height root outer (.struct (record.insert name value))) store := by
  have nonempty : (outer ++ [name]).isEmpty = false := by simp
  rw [assignPath_apply nonempty]
  cases read : store.read root with
  | error cause => rfl
  | ok whole =>
    simp only [lift_ok_bind]
    by_cases full : limit ≤ height + 1
    · simp only [hold, if_pos full, lift_error_bind]
      rfl
    · simp only [hold, if_neg full, lift_ok_bind, Value.setPath_concat, lift_bind]
      cases whole.follow outer with
      | error cause => rfl
      | ok part =>
        simp only [lift_ok_bind]
        cases part.asStruct with
        | error cause => rfl
        | ok record =>
          simp only [lift_ok_bind]
          cases outer with
          | nil => rfl
          | cons first rest =>
            rw [assignPath_apply rfl, read, lift_ok_bind, hold, if_neg full, lift_ok_bind]

end Bounded

end Semantics

namespace Machine

open Semantics Semantics.Bounded

namespace Activation.Shows

variable {session : Session} {activation : Activation session} {address : Nat}
  {values : List Value} {store : Store} {state : State} {tag : String}

/-- Loading members one after the other follows their path. -/
theorem loadMembers {whole : Value} {members : List String}
    (shown : activation.Shows address (whole :: values) store state)
    (above : activation.below <:+ values)
    (holds : activation.Holds address
      (members.map fun name => .named .loadField name tag)) :
    activation.Simulates members.length state (lift (whole.follow members)) store
      fun value after next =>
        activation.Shows (address + members.length) (value :: values) after next := by
  induction members generalizing whole address state store with
  | nil => exact .done shown
  | cons name others inductionHypothesis =>
    have first := shown.loadField above holds.head
    have both := first.bind fun part after between shownPart =>
      inductionHypothesis shownPart holds.tail
    refine (both.congr ?_).mono ?_ ?_
    · simp only [Value.follow, lift_bind, bind_assoc]
    · simp only [List.length_cons]
      omega
    · intro value after next shownValue
      rwa [List.length_cons, Nat.add_comm others.length 1, ← Nat.add_assoc]

/-- Loading a path reads its variable and follows its members. -/
theorem loadPath {root : String} {members : List String}
    (shown : activation.Shows address values store state)
    (holds : activation.Holds address (Instruction.loadPath root members tag)) :
    activation.Simulates (members.length + 1) state
      (lift (store.read root) >>= fun whole => hold session.limit values.length >>= fun _ =>
        lift (whole.follow members)) store
      fun value after next =>
        activation.Shows (address + (members.length + 1)) (value :: values) after next := by
  have variableLoaded := shown.loadVariable holds.head
  have both := variableLoaded.bind fun whole after between shownWhole =>
    shownWhole.loadMembers shown.above holds.tail
  refine (both.congr ?_).mono ?_ ?_
  · simp only [bind_assoc, pure_bind]
  · omega
  · intro value after next shownValue
    rwa [Nat.add_comm members.length 1, ← Nat.add_assoc]

/-- Storing at the end of a path, whose members are given from the innermost outwards. -/
theorem storePath {root : String} {members : List String} {value : Value}
    (shown : activation.Shows address (value :: values) store state)
    (above : activation.below <:+ values)
    (holds : activation.Holds address (Instruction.storePath root tag members)) :
    activation.Simulates (Instruction.storePath root tag members).length state
      (assignPath session.limit values.length root members.reverse value) store
      fun _ after next =>
        activation.Shows (address + (Instruction.storePath root tag members).length) values
          after next := by
  induction members generalizing value address state store with
  | nil => exact shown.storeVariable above holds.head
  | cons name outer inductionHypothesis =>
    have loaded := shown.loadPath holds.left
    have length : (Instruction.loadPath root outer.reverse tag).length = outer.length + 1 := by
      simp [Instruction.loadPath]
    have rest := holds.right
    rw [length] at rest
    have stored := loaded.bind fun part after between shownPart =>
      (shownPart.storeField above (by simpa using rest.head)).bind
        fun record later next shownRecord =>
          inductionHypothesis shownRecord (by simpa using rest.tail)
    rw [List.length_reverse] at stored
    refine (stored.congr ?_).mono ?_ ?_
    · rw [List.reverse_cons]
      exact assignPath_concat session.limit values.length root outer.reverse name value store
    · simp only [Instruction.storePath, List.length_append, List.length_cons, length]
      omega
    · intro _ after next shownNext
      have arrived : address + (Instruction.storePath root tag (name :: outer)).length =
          address + (outer.length + 1) + 1 + (Instruction.storePath root tag outer).length := by
        simp only [Instruction.storePath, List.length_append, List.length_cons, length]
        omega
      rwa [arrived]

end Activation.Shows

/-- The machine walks as calls are evaluated in every activation from which `remaining` more calls
may become active. The value of a call, if it has one, takes the place of its arguments. -/
def Session.CallsSimulated (session : Session) (remaining : Nat) : Prop :=
  ∀ (activation : Activation session) (name tag : String) (arguments values : List Value)
    (address : Nat) (store : Store) (state : State),
    activation.remaining = remaining →
    activation.Fetches address (.named .callFunc name tag) →
    (session.context none).Takes name arguments.length →
    activation.below <:+ values →
    activation.Shows address (arguments.reverse ++ values) store state →
    activation.Simulates 1 state (session.callee remaining values.length name arguments) store
      fun result after next => result.isSome = (session.context none).callHasValue name ∧
        activation.Shows (address + 1) (result.toList ++ values) after next

/-- What an activation does at the code of an expression. -/
def Activation.Computes {session : Session} (activation : Activation session) (tag : String)
    (expr : Expr) : Prop :=
  ∀ (address : Nat) (values : List Value) (store : Store) (state : State),
    activation.Holds address (expr.code tag) →
    activation.Shows address values store state →
    activation.Simulates (expr.code tag).length state
      (evalExpr session.limit (session.callee activation.remaining) expr values.length) store
      fun value after next =>
        activation.Shows (address + (expr.code tag).length) (value :: values) after next

namespace Activation

variable {session : Session} {activation : Activation session} {tag : String}

/-- The values of arguments are left in their order, the last one topmost. -/
theorem computesAll {exprs : List Expr}
    (each : ∀ expr ∈ exprs, activation.Computes tag expr) (address : Nat) (values : List Value)
    (store : Store) (state : State)
    (holds : activation.Holds address (Expr.codeAll tag exprs))
    (shown : activation.Shows address values store state) :
    activation.Simulates (Expr.codeAll tag exprs).length state
      (evalExprs session.limit (session.callee activation.remaining) exprs values.length) store
      fun results after next => results.length = exprs.length ∧
        activation.Shows (address + (Expr.codeAll tag exprs).length) (results.reverse ++ values)
          after next := by
  induction exprs generalizing address values store state with
  | nil => exact .done ⟨rfl, shown⟩
  | cons expr rest inductionHypothesis =>
    obtain ⟨exprEach, restEach⟩ := List.forall_mem_cons.mp each
    have length : (Expr.codeAll tag (expr :: rest)).length =
        (expr.code tag).length + (Expr.codeAll tag rest).length := by
      rw [Expr.codeAll, List.length_append]
    rw [Expr.codeAll] at holds
    rw [length]
    refine (exprEach address values store state holds.left shown).bind ?_
    intro value after between shownValue
    refine (inductionHypothesis restEach _ (value :: values) after between holds.right
      shownValue).map ?_
    rintro results later next ⟨count, shownResults⟩
    refine ⟨congrArg (· + 1) count, ?_⟩
    rwa [List.reverse_cons, List.append_assoc, ← Nat.add_assoc]

variable {enclosing : Option FunctionDecl}

/-- The code of a call evaluates its arguments and carries the call out. -/
theorem computesCall {callee : String} {arguments : List Expr}
    (calls : session.CallsSimulated activation.remaining)
    (takes : (session.context none).Takes callee arguments.length)
    (each : ∀ argument ∈ arguments, activation.Computes tag argument) (address : Nat)
    (values : List Value) (store : Store) (state : State)
    (holds : activation.Holds address (Expr.code tag (.call callee arguments)))
    (shown : activation.Shows address values store state) :
    activation.Simulates (Expr.code tag (.call callee arguments)).length state
      (evalExprs session.limit (session.callee activation.remaining) arguments values.length >>=
        session.callee activation.remaining values.length callee) store
      fun result after next => result.isSome = (session.context none).callHasValue callee ∧
        activation.Shows (address + (Expr.code tag (.call callee arguments)).length)
          (result.toList ++ values) after next := by
  have length : (Expr.code tag (.call callee arguments)).length =
      (Expr.codeAll tag arguments).length + 1 := by
    rw [Expr.code, List.length_append, List.length_singleton]
  rw [Expr.code] at holds
  rw [length]
  refine (computesAll each address values store state holds.left shown).bind ?_
  rintro results after between ⟨count, shownResults⟩
  exact calls activation callee tag results values _ after between rfl holds.right.head
    (count ▸ takes) shown.above shownResults

/-- The code of a legal expression computes its value. -/
theorem computes_of_legal {expr : Expr} (calls : session.CallsSimulated activation.remaining)
    (legal : expr.Legal (session.context enclosing)) : activation.Computes tag expr := by
  induction legal with
  | literal value =>
    intro address values store state holds shown
    exact shown.loadConstant holds.head (.inl rfl)
  | identifier name =>
    intro address values store state holds shown
    exact (shown.loadVariable holds.head).congr rfl
  | binary operator leftLegal rightLegal leftComputes rightComputes =>
    intro address values store state holds shown
    have rest := holds.right
    rw [List.length_append] at rest
    have operands := (leftComputes address values store state holds.left.left shown).bind
      fun leftValue after between shownLeft =>
        (rightComputes _ (leftValue :: values) after between holds.left.right shownLeft).bind
          fun rightValue later next shownRight =>
            shownRight.applyOperator shown.above (by simpa [Nat.add_assoc] using rest.head)
    refine operands.mono ?_ ?_
    · simp [Expr.code]
    · intro value after next shownValue
      simpa [Expr.code, Nat.add_assoc] using shownValue
  | @call callee arguments hasValue takes argumentsLegal argumentsCompute =>
    intro address values store state holds shown
    have called := computesCall calls takes argumentsCompute address values store state holds shown
    have unfolded : evalExpr session.limit (session.callee activation.remaining)
        (.call callee arguments) values.length =
          (evalExprs session.limit (session.callee activation.remaining) arguments
            values.length >>= session.callee activation.remaining values.length callee) >>=
          fun result => pure (result.getD .none) := by
      rw [bind_assoc]
      rfl
    rw [unfolded]
    refine called.map ?_
    rintro result after next ⟨isSome, shownResult⟩
    obtain ⟨value, rfl⟩ := Option.isSome_iff_exists.mp (isSome.trans hasValue)
    exact shownResult
  | member name objectLegal objectComputes =>
    intro address values store state holds shown
    have loaded := (objectComputes address values store state holds.left shown).bind
      fun whole after between shownWhole => shownWhole.loadField shown.above holds.right.head
    refine loaded.mono ?_ ?_
    · simp [Expr.code]
    · intro value after next shownValue
      simpa [Expr.code, Nat.add_assoc] using shownValue

end Activation

end Machine

end StackLang
