import StackLang.Proofs.BoundedMeaning
import StackLang.Proofs.NestedScopes
import StackLang.Proofs.Placement
import StackLang.Proofs.Walk

/-!
# Activations

An activation is a call while it runs: its frame, what waits below it on both stacks and in the
tables, and nothing that its own code changes. `Activation.Shows` says what the state of the machine
is while a store is seen and values wait. `Activation.Simulates` says that the machine walks as an
evaluation goes, to the same result or to the same fault; it is composed along the evaluation by
`Simulates.bind`, and there is one rule for every instruction.
-/

namespace StackLang.Machine

open Semantics Semantics.Bounded

/-- The most steps an instruction can take, the steps of the calls it makes included, when
`remaining` more calls may become active in code of the given size. -/
def stepCost (size : Nat) : Nat → Nat
  | 0 => 1
  | remaining + 1 => 1 + size * stepCost size remaining

theorem stepCost_pos (size remaining : Nat) : 1 ≤ stepCost size remaining := by
  cases remaining <;> simp [stepCost]

/-- A program, what it has been compiled to, and the bounds under which it is run. -/
structure Session where
  program : Program
  types : StructTypes
  compiled : CompiledProgram
  settings : Settings
  /-- The greatest number of values on the operand stack. -/
  limit : Nat
  placed : program.Placed types compiled
  addressable : compiled.Addressable

namespace Session

variable (session : Session)

/-- The surroundings of a body of the program. -/
def context (enclosing : Option FunctionDecl) : BodyContext :=
  ⟨session.program.functions, session.types, enclosing⟩

/-- How calls are evaluated when `remaining` more may become active. -/
def callee (remaining : Nat) : Bounded.Callee :=
  Bounded.invoke session.program.functions session.types session.settings session.limit remaining

/-- The most steps an instruction can take. -/
def cost (remaining : Nat) : Nat :=
  stepCost session.compiled.code.size remaining

end Session

/-- A call while it runs. -/
structure Activation (session : Session) where
  frame : Frame
  callers : CallStack
  /-- The variables of the calls that wait, the outermost first. -/
  pending : List (Bindings Value)
  /-- The values that were on the operand stack below the arguments of the call. -/
  below : List Value
  /-- The part of its code that it carries out. -/
  stretch : Stretch

/-- A stretch of the code is being carried out in the innermost of the given calls: control is in
it, or in a call that was made from it. -/
inductive Occupied (stretch : Stretch) (calls : CallStack) (state : State) : Prop where
  | inside (innermost : state.calls = calls) (above : stretch.first ≤ state.pc)
      (below : state.pc < stretch.stop)
  | called {frame : Frame} (active : frame :: calls <:+ state.calls)
      (above : stretch.first < frame.returnAddress) (below : frame.returnAddress ≤ stretch.stop)

/-- The state after an evaluation in a call has stopped with a fault: the calls that were active in
the fault are active above the given ones, and the global variables are those of the store. -/
structure Faulted (calls : CallStack) (fault : Fault) (store : Store) (state : State) : Prop where
  backtrace : state.calls.backtrace = calls.backtrace ++ fault.active
  globals : state.scopes.table? .global = some ⟨store.globals, none⟩

namespace Activation

variable {session : Session} (activation : Activation session)

/-- The active calls. -/
def calls : CallStack :=
  activation.frame :: activation.callers

/-- An instruction stands where the activation carries it out. -/
abbrev Fetches (address : Nat) (instruction : Instruction) : Prop :=
  session.compiled.code.FetchesWithin activation.stretch address instruction

/-- The given instructions stand where the activation carries them out. -/
abbrev Holds (address : Nat) (fragment : List Instruction) : Prop :=
  session.compiled.code.HoldsWithin activation.stretch address fragment

/-- The same call while it carries out another part of its code. -/
def inStretch (stretch : Stretch) : Activation session :=
  { activation with stretch }

/-- The number of calls that may still become active. -/
def remaining : Nat :=
  session.settings.maxCallDepth - activation.calls.length

/-- The state at an address of the call's code while a store is seen and values wait. -/
structure Shows (address : Nat) (values : List Value) (store : Store) (state : State) : Prop where
  pc_eq : state.pc = address
  calls_eq : state.calls = activation.calls
  limit_eq : state.stack.limit = session.limit
  values_eq : state.stack.values = values
  fits : values.length ≤ session.limit
  above : activation.below <:+ values
  scopes_eq : state.scopes = .ofStore activation.pending store
  place_eq : store.place activation.pending = activation.frame.scope

variable {activation} in
/-- What a call shows does not depend on the part of its code that it carries out. -/
theorem Shows.inStretch {address : Nat} {values : List Value} {store : Store} {state : State}
    (shown : activation.Shows address values store state) (stretch : Stretch) :
    (activation.inStretch stretch).Shows address values store state :=
  { shown with }

/-- The state after the call has returned: only its result is left of it. -/
structure Returned (result : Option Value) (store : Store) (state : State) : Prop where
  pc_eq : state.pc = activation.frame.returnAddress
  calls_eq : state.calls = activation.callers
  limit_eq : state.stack.limit = session.limit
  values_eq : state.stack.values = result.toList ++ activation.below
  fits : (result.toList ++ activation.below).length ≤ session.limit
  scopes_eq : state.scopes = .nested store.globals activation.pending

end Activation

/-- A state that some activation shows. A function that is about to be called there finds its
arguments on the stack. -/
def Session.Stationed (session : Session) (state : State) : Prop :=
  (∃ (activation : Activation session) (store : Store),
    activation.Shows state.pc state.stack.values store state) ∧
  ∀ name tag entry,
    session.compiled.code[state.pc]? = some (Instruction.named .callFunc name tag) →
    session.compiled.functions.find? name = some entry →
    entry.declaration.arity ≤ state.stack.values.length

namespace Activation

variable {session : Session} (activation : Activation session)

/-- What holds in every state of a call and of the calls it makes: neither the values below it nor
the calls below it have been touched, and control has not left the part of the code that it carries
out. -/
structure Sees (state : State) : Prop where
  values : activation.below <:+ state.stack.values
  calls : activation.calls <:+ state.calls
  stationed : session.Stationed state
  occupied : Occupied activation.stretch activation.calls state

/-- From a state the machine walks as an evaluation goes. It takes at most `budget` instructions of
the call's own, and ends where `post` holds or with the fault of the evaluation. -/
def Simulates {α : Type} (budget : Nat) (state : State) (evaluation : Evaluation α) (store : Store)
    (post : α → Store → State → Prop) : Prop :=
  match evaluation store with
  | .ok value after => ∃ count next, count ≤ budget * session.cost activation.remaining ∧
      Walk session.compiled session.settings activation.Sees count state (.ok () next) ∧
      post value after next
  | .error fault after => ∃ count next, count ≤ budget * session.cost activation.remaining ∧
      Walk session.compiled session.settings activation.Sees count state
        (.error fault.cause next) ∧
      Faulted activation.calls fault after next

variable {activation} {α β : Type} {state : State} {store : Store}

namespace Simulates

theorem done {budget : Nat} {value : α} {post : α → Store → State → Prop}
    (holds : post value store state) :
    activation.Simulates budget state (pure value) store post :=
  ⟨0, state, Nat.zero_le _, .rest state, holds⟩

theorem bind {first second : Nat} {evaluation : Evaluation α} {next : α → Evaluation β}
    {middle : α → Store → State → Prop} {post : β → Store → State → Prop}
    (before : activation.Simulates first state evaluation store middle)
    (later : ∀ value after between, middle value after between →
      activation.Simulates second between (next value) after post) :
    activation.Simulates (first + second) state (evaluation >>= next) store post := by
  unfold Simulates at before ⊢
  cases evaluated : evaluation store with
  | error fault after =>
    rw [evaluated] at before
    obtain ⟨count, stopped, bounded, walk, faulted⟩ := before
    simp only [Bind.bind, EStateM.bind, evaluated]
    exact ⟨count, stopped, Nat.le_trans bounded (Nat.mul_le_mul_right _ (Nat.le_add_right _ _)),
      walk, faulted⟩
  | ok value after =>
    rw [evaluated] at before
    obtain ⟨count, between, bounded, walk, holds⟩ := before
    have laterHolds := later value after between holds
    unfold Simulates at laterHolds
    simp only [Bind.bind, EStateM.bind, evaluated]
    cases continued : next value after with
    | ok result final =>
      rw [continued] at laterHolds
      obtain ⟨more, reached, laterBounded, laterWalk, laterPost⟩ := laterHolds
      refine ⟨count + more, reached, ?_, walk.trans laterWalk, laterPost⟩
      rw [Nat.add_mul]
      exact Nat.add_le_add bounded laterBounded
    | error fault final =>
      rw [continued] at laterHolds
      obtain ⟨more, reached, laterBounded, laterWalk, faulted⟩ := laterHolds
      refine ⟨count + more, reached, ?_, walk.trans laterWalk, faulted⟩
      rw [Nat.add_mul]
      exact Nat.add_le_add bounded laterBounded

theorem mono {budget larger : Nat} {evaluation : Evaluation α}
    {post weaker : α → Store → State → Prop}
    (simulated : activation.Simulates budget state evaluation store post)
    (enough : budget ≤ larger)
    (weaken : ∀ value after next, post value after next → weaker value after next) :
    activation.Simulates larger state evaluation store weaker := by
  have room : budget * session.cost activation.remaining ≤
      larger * session.cost activation.remaining := Nat.mul_le_mul_right _ enough
  unfold Simulates at simulated ⊢
  split at simulated
  · obtain ⟨count, next, bounded, walk, holds⟩ := simulated
    exact ⟨count, next, Nat.le_trans bounded room, walk, weaken _ _ _ holds⟩
  · obtain ⟨count, next, bounded, walk, faulted⟩ := simulated
    exact ⟨count, next, Nat.le_trans bounded room, walk, faulted⟩

/-- An evaluation stands for any that gives the same result. -/
theorem congr {budget : Nat} {evaluation other : Evaluation α} {post : α → Store → State → Prop}
    (simulated : activation.Simulates budget state other store post)
    (same : evaluation store = other store) :
    activation.Simulates budget state evaluation store post := by
  unfold Simulates at simulated ⊢
  rw [same]
  exact simulated

/-- What is made of a result needs no steps of the machine. -/
theorem map {budget : Nat} {evaluation : Evaluation α} {change : α → β}
    {middle : α → Store → State → Prop} {post : β → Store → State → Prop}
    (simulated : activation.Simulates budget state evaluation store middle)
    (holds : ∀ value after next, middle value after next → post (change value) after next) :
    activation.Simulates budget state (evaluation >>= fun value => pure (change value)) store
      post :=
  @bind _ _ _ _ _ _ budget 0 _ _ _ _ simulated fun value after next reached =>
    .done (holds value after next reached)

/-- The machine may walk on after an evaluation and keep its result. -/
theorem andThen {first second : Nat} {evaluation : Evaluation α}
    {middle post : α → Store → State → Prop}
    (before : activation.Simulates first state evaluation store middle)
    (later : ∀ value after between, middle value after between →
      activation.Simulates second between (pure value) after post) :
    activation.Simulates (first + second) state evaluation store post :=
  (before.bind later).congr (congrFun (bind_pure evaluation).symm store)

end Simulates

end Activation

end StackLang.Machine
