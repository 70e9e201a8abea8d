import StackLang.Lowering.Fragment
import StackLang.Proofs.ScopeTree
import StackLang.Proofs.StepEffects

/-!
# Every call owns a table

Whatever code a machine runs, and whatever its earlier runs have left behind, its calls and its
symbol tables stay in step: besides the global table there is one table for each called function, in
the order of the calls, and the global statements use the global table itself. So the table that a
return releases is that of the call it ends and of no other, and variables are only ever defined in
tables that are there. `Framed` is what a step preserves, and `Framed.advance` what a run does. The
tables form a tree in particular, so whatever name a run looks up, the search ends
(`Passes.search_ends`).
-/

namespace StackLang

namespace Scopes

theorem parents_pop (scopes : Scopes) :
    (Scopes.mk scopes.tables.pop).parents = scopes.parents.dropLast := by
  simp [parents, List.map_dropLast]

theorem define?_of_isLive {scopes : Scopes} {scope : ScopeId} (live : scopes.isLive scope = true)
    (name : String) (value : Value) :
    scopes.define? scope name value = some (scopes.define scope name value) :=
  if_pos live

end Scopes

namespace Machine

/-- Bind parameters to arguments in a table, unless a binding meets a place without a table. -/
def bindParameters? (scope : ScopeId) (parameters : List TypedName) (arguments : List Value)
    (scopes : Scopes) : Option Scopes :=
  (parameters.reverse.zip arguments).foldlM
    (fun scopes (parameter, argument) => scopes.define? scope parameter.name argument) scopes

theorem bindParameters?_of_isLive {scope : ScopeId} {scopes : Scopes}
    (live : scopes.isLive scope = true) (parameters : List TypedName) (arguments : List Value) :
    bindParameters? scope parameters arguments scopes =
      some (bindParameters scope parameters arguments scopes) := by
  unfold bindParameters? bindParameters
  generalize parameters.reverse.zip arguments = bound
  induction bound generalizing scopes with
  | nil => rfl
  | cons first rest inductionHypothesis =>
    obtain ⟨parameter, argument⟩ := first
    rw [List.foldlM_cons]
    dsimp only
    rw [Scopes.define?_of_isLive live, List.foldl_cons]
    exact inductionHypothesis ((Scopes.isLive_define _ _ _ _ _).trans live)

variable {program : CompiledProgram} {settings : Settings}

/-- The states of a machine that is not running: it is new, or its last run has ended, in whatever
way. -/
inductive Rested (program : CompiledProgram) (settings : Settings) : State → Prop where
  | fresh : Rested program settings (.initial settings)
  | ran {prior : State} {fuel : Nat} {ending : Ending} (before : Rested program settings prior)
      (ended : execute program settings fuel prior = some ending) :
      Rested program settings ending.state

/-- The frame of the global statements, which own the global table. -/
def initialFrame (program : CompiledProgram) : Frame :=
  ⟨globalOwner, .global, program.code.size⟩

/-- The states that a run comes through, with the frames that lie below its called functions: that
of the global statements while they run, and none once they have. -/
inductive Passes (program : CompiledProgram) (settings : Settings) (prior : State) :
    CallStack → State → Prop where
  | initialiser {main : FunctionEntry} {count : Nat} {state : State}
      (found : program.functions.find? entryPoint = some main)
      (advanced : advance program settings count (start program main prior.reset) = some state) :
      Passes program settings prior [initialFrame program] state
  | main {main : FunctionEntry} {fuel count : Nat} {initialised entered state : State}
      (found : program.functions.find? entryPoint = some main)
      (settled : settle program settings fuel (start program main prior.reset) =
        some (.ok () initialised))
      (called : Action.call settings main program.code.size initialised = .ok () entered)
      (advanced : advance program settings count entered = some state) :
      Passes program settings prior [] state

/-- Calls and tables are in step: `called` are the frames of called functions, the innermost first,
and `outer` those that lie below them. -/
structure Framed (settings : Settings) (outer called : CallStack) (state : State) : Prop where
  calls_eq : state.calls = called ++ outer
  /-- There is the global table and, below it, one for each called function. -/
  parents_eq : state.scopes.parents = none :: List.replicate called.length (some .global)
  /-- Counted from the outermost, each called function owns the table of its number. -/
  owns : ∀ (index : Nat) (frame : Frame), called.reverse[index]? = some frame →
    frame.scope = ⟨index + 1⟩
  shallow : state.calls.depth ≤ max 1 settings.maxCallDepth
  limit_eq : state.stack.limit = settings.maxStackSize
  fits : state.stack.values.length ≤ settings.maxStackSize

namespace Framed

variable {outer called : CallStack} {state next : State}

theorem size_eq (framed : Framed settings outer called state) :
    state.scopes.size = called.length + 1 := by
  rw [← Scopes.length_parents, framed.parents_eq, List.length_cons, List.length_replicate]

/-- The tables form a tree, in which all but the global one are children of that. -/
theorem isTree (framed : Framed settings outer called state) : state.scopes.IsTree := by
  have parent_eq : ∀ scope : ScopeId, state.scopes.parent? scope =
      (none :: List.replicate called.length (some ScopeId.global))[scope.index]? := by
    intro scope
    rw [← framed.parents_eq]
    simp [Scopes.parent?, Scopes.table?, Scopes.parents]
  refine ⟨parent_eq .global, ?_⟩
  rintro ⟨index⟩ isLocal live
  obtain ⟨less, rfl⟩ : ∃ less, index = less + 1 := by
    refine Nat.exists_eq_add_of_le' (Nat.pos_of_ne_zero ?_)
    rintro rfl
    exact isLocal rfl
  have inside : less < called.length := by
    have bound := Scopes.isLive_iff.mp live
    rw [framed.size_eq] at bound
    exact Nat.lt_of_succ_lt_succ bound
  refine ⟨.global, Nat.succ_pos less, ?_⟩
  rw [parent_eq, List.getElem?_cons_succ, List.getElem?_replicate, if_pos inside]

theorem withinLimit (framed : Framed settings outer called state) : state.Fits := by
  unfold State.Fits
  rw [framed.limit_eq]
  exact framed.fits

theorem undisturbed (framed : Framed settings outer called state)
    (same : Undisturbed state next) : Framed settings outer called next where
  calls_eq := same.calls_eq.trans framed.calls_eq
  parents_eq := same.parents_eq.trans framed.parents_eq
  owns := framed.owns
  shallow := same.calls_eq ▸ framed.shallow
  limit_eq := same.limit_eq.trans framed.limit_eq
  fits := by
    have kept : next.Fits := same.fits framed.withinLimit
    rwa [State.Fits, same.limit_eq, framed.limit_eq] at kept

/-- A called function gets a frame and a table on top of those that are there. -/
theorem entered {entry : FunctionEntry} {returnAddress : Nat}
    (framed : Framed settings outer called state)
    (entered : Entered settings entry returnAddress state next) :
    Framed settings outer
      (⟨entry.declaration.name, ⟨called.length + 1⟩, returnAddress⟩ :: called) next where
  calls_eq := by
    rw [entered.calls_eq, framed.calls_eq, Scopes.nextId, framed.size_eq]
    rfl
  parents_eq := by
    rw [entered.parents_eq, framed.parents_eq, List.length_cons, List.replicate_succ',
      List.cons_append]
  owns := by
    intro index frame found
    rw [List.reverse_cons] at found
    by_cases earlier : index < called.length
    · rw [List.getElem?_append_left (by simpa using earlier)] at found
      exact framed.owns index frame found
    · have last : index = called.length := by
        have inside := (List.getElem?_eq_some_iff.mp found).1
        simp only [List.length_append, List.length_reverse, List.length_singleton] at inside
        omega
      subst last
      rw [List.getElem?_append_right (by simp)] at found
      simp only [List.length_reverse, Nat.sub_self, List.getElem?_cons_zero] at found
      cases found
      rfl
  shallow := by
    rw [entered.calls_eq]
    exact Nat.le_trans entered.shallow (Nat.le_max_right _ _)
  limit_eq := entered.limit_eq.trans framed.limit_eq
  fits := by
    have kept : next.Fits := entered.fits framed.withinLimit
    rwa [State.Fits, entered.limit_eq, framed.limit_eq] at kept

theorem innermost_owns {frame : Frame} (framed : Framed settings outer (frame :: called) state) :
    frame.scope = ⟨called.length + 1⟩ :=
  framed.owns called.length frame (by simp)

theorem owns_callers {frame : Frame} (framed : Framed settings outer (frame :: called) state)
    (index : Nat) (other : Frame) (found : called.reverse[index]? = some other) :
    other.scope = ⟨index + 1⟩ := by
  apply framed.owns index other
  rw [List.reverse_cons, List.getElem?_append_left (List.getElem?_eq_some_iff.mp found).1]
  exact found

/-- Leaving a called function releases the newest table. -/
theorem release_eq {frame : Frame} (framed : Framed settings outer (frame :: called) state) :
    state.scopes.release frame.scope = ⟨state.scopes.tables.pop⟩ := by
  rw [framed.innermost_owns]
  apply Scopes.release_newest
  · simp [ScopeId.global]
  · rw [framed.size_eq, List.length_cons]

theorem left {frame : Frame} (framed : Framed settings outer (frame :: called) state) :
    Framed settings outer called state.leave := by
  have calls_eq : state.calls = frame :: (called ++ outer) := framed.calls_eq
  rw [State.leave_eq calls_eq]
  exact {
    calls_eq := rfl
    parents_eq := by
      rw [framed.release_eq, Scopes.parents_pop, framed.parents_eq, List.length_cons,
        List.replicate_succ', ← List.cons_append, List.dropLast_concat]
    owns := framed.owns_callers
    shallow := by
      have deeper := framed.shallow
      rw [calls_eq] at deeper
      exact Nat.le_of_succ_le deeper
    limit_eq := framed.limit_eq
    fits := framed.fits }

/-- Leaving the global statements releases nothing. -/
theorem leave_initial (framed : Framed settings [initialFrame program] [] state) :
    state.leave = { state with
      calls := []
      pc := program.code.size
      events := state.events.push (.returned globalOwner) } := by
  have calls_eq : state.calls = [initialFrame program] := framed.calls_eq
  have kept : state.scopes.release (initialFrame program).scope = state.scopes := by
    simp [Scopes.release, initialFrame]
  rw [State.leave_eq calls_eq, kept]
  rfl

theorem ended (framed : Framed settings [initialFrame program] [] state) :
    Framed settings [] [] state.leave := by
  rw [framed.leave_initial]
  exact { framed with
    calls_eq := rfl
    shallow := Nat.zero_le _ }

/-- A step keeps calls and tables in step, or it ends the last call of its phase. -/
theorem step (framed : Framed settings outer called state)
    (bottom : outer = [] ∨ outer = [initialFrame program]) (busy : state.calls ≠ [])
    (stepped : Action.step program settings state = .ok () next) :
    (∃ called, Framed settings outer called next) ∨ Framed settings [] [] next := by
  obtain ⟨instruction, _, performed⟩ := Action.step_cases stepped
  have fetched := framed.undisturbed (Action.undisturbed_fetched settings instruction state)
  cases performed with
  | onward steady _ => exact .inl ⟨called, fetched.undisturbed steady.toUndisturbed⟩
  | jumped steady _ _ _ =>
    have kept := fetched.undisturbed steady.toUndisturbed
    exact .inl ⟨called, { kept with }⟩
  | called _ _ _ entered => exact .inl ⟨_, fetched.entered entered⟩
  | left _ =>
    cases called with
    | cons frame rest => exact .inl ⟨rest, fetched.left⟩
    | nil =>
      rcases bottom with rfl | rfl
      · exact absurd framed.calls_eq busy
      · exact .inr fetched.ended

/-- A run keeps calls and tables in step until the last call of a phase is left. -/
theorem advance {count : Nat} {after : State} (framed : Framed settings outer called state)
    (bottom : outer = [] ∨ outer = [initialFrame program])
    (advanced : advance program settings count state = some after) :
    (∃ called, Framed settings outer called after) ∨ Framed settings [] [] after := by
  induction count generalizing state called with
  | zero =>
    cases advanced
    exact .inl ⟨called, framed⟩
  | succ count inductionHypothesis =>
    obtain ⟨next, busy, stepped, later⟩ := exists_step_of_advance advanced
    rcases framed.step bottom busy stepped with ⟨more, onward⟩ | ended
    · exact inductionHypothesis onward later
    · cases count with
      | zero =>
        cases later
        exact .inr ended
      | succ count =>
        obtain ⟨_, busyNext, _⟩ := exists_step_of_advance later
        exact absurd ended.calls_eq busyNext

theorem report (framed : Framed settings outer called state) (event : Event) :
    Framed settings outer called (state.report event) :=
  { framed with }

/-- The state in which a run starts is in step. -/
theorem start {main : FunctionEntry} {prior : State}
    (limit_eq : prior.stack.limit = settings.maxStackSize) :
    Framed settings [initialFrame program] [] (start program main prior.reset) where
  calls_eq := rfl
  parents_eq := rfl
  owns := fun _ _ absent => nomatch absent
  shallow := Nat.le_max_left _ _
  limit_eq := limit_eq
  fits := Nat.zero_le _

theorem reset {prior : State} (limit_eq : prior.stack.limit = settings.maxStackSize) :
    Framed settings [] [] prior.reset where
  calls_eq := rfl
  parents_eq := rfl
  owns := fun _ _ absent => nomatch absent
  shallow := Nat.zero_le _
  limit_eq := limit_eq
  fits := Nat.zero_le _

/-- When a phase has been settled without an error, only the global table is left. -/
theorem settled {fuel : Nat} (framed : Framed settings outer called state)
    (bottom : outer = [] ∨ outer = [initialFrame program])
    (settled : settle program settings fuel state = some (.ok () next)) :
    Framed settings [] [] next := by
  obtain ⟨count, last, advanced, ⟨idle, same⟩ | ⟨_, _, _, _, impossible⟩⟩ :=
    advance_of_settle settled
  · cases same
    rcases framed.advance bottom advanced with ⟨more, onward⟩ | ended
    · have parts := onward.calls_eq
      rw [idle] at parts
      obtain ⟨rfl, rfl⟩ := List.append_eq_nil_iff.mp parts.symm
      exact onward
    · exact ended
  · cases impossible

/-- An error leaves calls and tables in step. -/
theorem stopped {fuel : Nat} {cause : RunError} (framed : Framed settings outer called state)
    (bottom : outer = [] ∨ outer = [initialFrame program])
    (settled : settle program settings fuel state = some (.error cause next)) :
    ∃ called, Framed settings outer called next := by
  obtain ⟨count, last, advanced, ⟨_, impossible⟩ | ⟨cause, final, busy, failed, same⟩⟩ :=
    advance_of_settle settled
  · cases impossible
  · cases same
    rcases framed.advance bottom advanced with ⟨more, onward⟩ | ended
    · exact ⟨more, onward.undisturbed (Action.step_stops failed)⟩
    · exact absurd ended.calls_eq busy

/-- The table of every active call is there. -/
theorem owned_isLive (framed : Framed settings outer called state)
    (bottom : outer = [] ∨ outer = [initialFrame program]) {frame : Frame}
    (active : frame ∈ state.calls) : state.scopes.isLive frame.scope = true := by
  rw [Scopes.isLive_iff, framed.size_eq]
  rw [framed.calls_eq] at active
  rcases List.mem_append.mp active with function | below
  · obtain ⟨index, found⟩ := List.mem_iff_getElem?.mp (List.mem_reverse.mpr function)
    have inside := (List.getElem?_eq_some_iff.mp found).1
    rw [framed.owns index frame found]
    simpa using inside
  · rcases bottom with rfl | rfl
    · cases below
    · cases List.mem_singleton.mp below
      exact Nat.succ_pos _

theorem currentScope_isLive (framed : Framed settings outer called state)
    (bottom : outer = [] ∨ outer = [initialFrame program]) :
    state.scopes.isLive state.currentScope = true := by
  unfold State.currentScope
  cases calls : state.calls with
  | nil =>
    rw [Scopes.isLive_iff, framed.size_eq]
    exact Nat.succ_pos _
  | cons frame callers => exact framed.owned_isLive bottom (by simp [calls])

end Framed

/-- A call has been left: its caller goes on, and of the tables that of the call is gone, if it had
one of its own. -/
structure Released (program : CompiledProgram) (frame : Frame) (callers : CallStack)
    (state next : State) : Prop where
  resumes : next.pc = frame.returnAddress
  removes : (frame = initialFrame program ∧ next.scopes = state.scopes) ∨
    (frame.scope ≠ .global ∧ frame.scope.index + 1 = state.scopes.size ∧
      next.scopes = ⟨state.scopes.tables.pop⟩)
  /-- The tables of the calls that are still active are others, and they are still there. -/
  keeps : ∀ other ∈ callers, other.scope ≠ frame.scope ∧ next.scopes.isLive other.scope = true

theorem Framed.released {outer called : CallStack} {state next : State} {frame : Frame}
    {callers : CallStack} (framed : Framed settings outer called state)
    (bottom : outer = [] ∨ outer = [initialFrame program])
    (active : state.calls = frame :: callers)
    (stepped : Action.step program settings state = .ok () next)
    (left : next.calls = callers) : Released program frame callers state next := by
  have busy : state.calls ≠ [] := active ▸ List.cons_ne_nil _ _
  obtain ⟨resumes, release⟩ : next.pc = frame.returnAddress ∧
      next.scopes = state.scopes.release frame.scope := by
    have lengths := congrArg List.length active
    rcases Action.step_calls busy stepped with same | ⟨_, more⟩ | ⟨_, ends, resumes, release⟩
    · rw [← left, same, List.length_cons] at lengths
      omega
    · rw [← left, more, List.length_cons, List.length_cons] at lengths
      omega
    · rw [active] at ends
      cases ends
      exact ⟨resumes, release⟩
  cases called with
  | nil =>
    rcases bottom with rfl | rfl
    · exact absurd framed.calls_eq busy
    · have alone : [initialFrame program] = frame :: callers := framed.calls_eq.symm.trans active
      cases alone
      have kept : next.scopes = state.scopes := by
        rw [release]
        simp [Scopes.release, initialFrame]
      exact ⟨resumes, .inl ⟨rfl, kept⟩, fun _ absent => absurd absent List.not_mem_nil⟩
  | cons first rest =>
    have parts : first :: (rest ++ outer) = frame :: callers := framed.calls_eq.symm.trans active
    obtain ⟨rfl, callers_eq⟩ := List.cons.inj parts
    rw [framed.release_eq] at release
    have owned := framed.innermost_owns
    refine ⟨resumes, .inr ⟨by simp [owned, ScopeId.global], ?_, release⟩, ?_⟩
    · rw [owned, framed.size_eq, List.length_cons]
    · intro other member
      have size : next.scopes.size = rest.length + 1 := by
        have whole := framed.size_eq
        rw [List.length_cons] at whole
        rw [release, Scopes.size, Array.size_pop]
        exact Nat.sub_eq_of_eq_add whole
      have after : Framed settings outer rest next := by
        rcases framed.step bottom busy stepped with ⟨remaining, onward⟩ | ended
        · have sameCalls : remaining ++ outer = rest ++ outer := by
            rw [← onward.calls_eq, left, callers_eq]
          rwa [List.append_cancel_right sameCalls] at onward
        · rw [ended.calls_eq] at left
          rw [← left] at member
          cases member
      have live := after.owned_isLive bottom (left ▸ member)
      refine ⟨?_, live⟩
      intro shared
      rw [shared, owned, Scopes.isLive_iff, size] at live
      exact Nat.lt_irrefl _ live

/-- An instruction returns in a state: it needs no value, or there is one to return. -/
def State.Returns (state : State) (instruction : Instruction) : Prop :=
  instruction.opcode = .returnVoid ∨
    (instruction.opcode = .returnValue ∧ state.stack.isEmpty = false)

/-- Carrying out a return leaves the innermost call. -/
theorem step_of_returns {state : State} {instruction : Instruction}
    (found : program.code[state.pc]? = some instruction) (returns : state.Returns instruction) :
    Action.step program settings state =
      .ok () (Action.fetched settings instruction state).leave := by
  rw [Action.step_of_fetch found]
  rcases returns with returning | ⟨returning, filled⟩
  · simp only [Action.perform, returning]
    rfl
  · simp only [Action.perform, returning, Action.bind_get, Action.stack_fetched, filled]
    rfl

/-- A step that leaves a call has carried out a return. -/
theorem returns_of_step {state next : State} {instruction : Instruction} {frame : Frame}
    (found : program.code[state.pc]? = some instruction)
    (stepped : Action.step program settings state = .ok () next)
    (left : state.calls = frame :: next.calls) : state.Returns instruction := by
  have kept := (Action.undisturbed_fetched settings instruction state).calls_eq
  have shorter : ∀ more, next.calls ≠ more ++ state.calls := by
    intro more same
    have lengths := congrArg List.length left
    rw [same, List.length_cons, List.length_append] at lengths
    omega
  obtain ⟨fetched, foundHere, performed⟩ := Action.step_cases stepped
  cases found.symm.trans foundHere
  cases performed with
  | onward steady _ => exact absurd (steady.calls_eq.trans kept) (shorter [])
  | jumped steady _ _ _ => exact absurd (steady.calls_eq.trans kept) (shorter [])
  | called _ _ _ entered =>
    exact absurd (entered.calls_eq.trans (congrArg _ kept)) (shorter [_])
  | left returning =>
    rcases returning with returning | returning
    · refine .inr ⟨returning, Bool.eq_false_iff.mpr fun empty => ?_⟩
      -- With nothing to return the step would have failed.
      rw [Action.step_of_fetch found] at stepped
      simp only [Action.perform, returning, Action.bind_get, Action.stack_fetched, empty] at stepped
      cases stepped
    · exact .inl returning

/-- After a number of steps a call is active still, or one of them has left it while it was the
innermost. -/
def StaysOrReturns (program : CompiledProgram) (settings : Settings) (frame : Frame)
    (callers : CallStack) (count : Nat) (state later : State) : Prop :=
  frame :: callers <:+ later.calls ∨ ∃ fewer inner back, fewer < count ∧
    advance program settings fewer state = some inner ∧ inner.calls = frame :: callers ∧
    Action.step program settings inner = .ok () back ∧ back.calls = callers

/-- No call is left but by a return of its own. -/
theorem staysOrReturns_of_advance {frame : Frame} {callers : CallStack} {count : Nat}
    {state later : State} (active : frame :: callers <:+ state.calls)
    (advanced : advance program settings count state = some later) :
    StaysOrReturns program settings frame callers count state later := by
  induction count generalizing state with
  | zero =>
    cases advanced
    exact .inl active
  | succ count inductionHypothesis =>
    obtain ⟨next, busy, stepped, rest⟩ := exists_step_of_advance advanced
    have onward : frame :: callers <:+ next.calls →
        StaysOrReturns program settings frame callers (count + 1) state later := by
      intro inside
      rcases inductionHypothesis inside rest with
        still | ⟨fewer, inner, back, earlier, reached, left⟩
      · exact .inl still
      · refine .inr ⟨fewer + 1, inner, back, Nat.succ_lt_succ earlier, ?_, left⟩
        rw [advance_of_step busy stepped]
        exact reached
    rcases Action.step_calls busy stepped with same | ⟨more, deeper⟩ | ⟨innermost, ends, _⟩
    · exact onward (same ▸ active)
    · rw [deeper] at onward
      exact onward (active.trans (List.suffix_cons more state.calls))
    · rw [ends] at active
      rcases List.suffix_cons_iff.mp active with whole | inside
      · obtain ⟨rfl, rfl⟩ := List.cons.inj whole
        exact .inr ⟨0, state, next, Nat.succ_pos _, rfl, ends, stepped, rfl⟩
      · exact onward inside

/-- What holds in every state in which a step is taken. -/
structure Orderly (program : CompiledProgram) (settings : Settings) (outer : CallStack)
    (state : State) : Prop where
  framed : ∃ called, Framed settings outer called state
  /-- Each call that is active is ended by a return that finds it the innermost. -/
  popped : ∀ frame callers, frame :: callers <:+ state.calls → ∀ count later,
    advance program settings count state = some later →
    StaysOrReturns program settings frame callers count state later
  released : ∀ frame callers next, state.calls = frame :: callers →
    Action.step program settings state = .ok () next → next.calls = callers →
    Released program frame callers state next
  /-- A return that is fetched does end the innermost call. -/
  returns : ∀ frame callers instruction, state.calls = frame :: callers →
    program.code[state.pc]? = some instruction → state.Returns instruction →
    ∃ next, Action.step program settings state = .ok () next ∧ next.calls = callers ∧
      Released program frame callers state next
  /-- No other instruction does. -/
  onlyReturns : ∀ frame callers instruction next, state.calls = frame :: callers →
    program.code[state.pc]? = some instruction →
    Action.step program settings state = .ok () next → next.calls = callers →
    state.Returns instruction
  /-- There is a table to define a variable in. -/
  defined : ∀ name value, state.scopes.define? state.currentScope name value =
    some (state.scopes.define state.currentScope name value)
  /-- There is a table to bind the parameters of a called function in. -/
  bound : ∀ parameters arguments,
    bindParameters? state.scopes.nextId parameters arguments (state.scopes.createChild .global) =
      some (bindParameters state.scopes.nextId parameters arguments
        (state.scopes.createChild .global))

theorem Framed.orderly {outer called : CallStack} {state : State}
    (framed : Framed settings outer called state)
    (bottom : outer = [] ∨ outer = [initialFrame program]) :
    Orderly program settings outer state where
  framed := ⟨called, framed⟩
  popped := fun _ _ active _ _ advanced => staysOrReturns_of_advance active advanced
  released := fun _ _ _ active stepped left => framed.released bottom active stepped left
  returns := by
    intro frame callers instruction active found returns
    have stepped := @step_of_returns program settings state instruction found returns
    have activeHere := (Action.undisturbed_fetched settings instruction state).calls_eq.trans active
    have left : (Action.fetched settings instruction state).leave.calls = callers := by
      rw [State.leave_eq activeHere]
    exact ⟨_, stepped, left, framed.released bottom active stepped left⟩
  onlyReturns := fun _ _ _ _ active found stepped left =>
    returns_of_step found stepped (left ▸ active)
  defined := Scopes.define?_of_isLive (framed.currentScope_isLive bottom)
  bound := by
    apply bindParameters?_of_isLive
    rw [Scopes.isLive_iff, Scopes.size_createChild]
    exact Nat.lt_succ_self _

section Runs

variable {prior : State}

/-- Calls and tables are in step in every state of a run in which a step is taken. -/
theorem Passes.framed {outer : CallStack} {state : State}
    (limit_eq : prior.stack.limit = settings.maxStackSize)
    (passes : Passes program settings prior outer state) (busy : state.calls ≠ []) :
    (outer = [] ∨ outer = [initialFrame program]) ∧
      ∃ called, Framed settings outer called state := by
  cases passes with
  | initialiser found advanced =>
    refine ⟨.inr rfl, ?_⟩
    rcases (Framed.start limit_eq).advance (.inr rfl) advanced with onward | ended
    · exact onward
    · exact absurd ended.calls_eq busy
  | main found settled called advanced =>
    refine ⟨.inl rfl, ?_⟩
    have initialised := (Framed.start limit_eq).settled (.inr rfl) settled
    have entered := initialised.entered (Action.entered_of_call called)
    rcases entered.advance (.inl rfl) advanced with onward | ended
    · exact onward
    · exact absurd ended.calls_eq busy

/-- Every search in a run ends, so what `searched` goes on with is always an answer. -/
theorem Passes.search_ends {outer : CallStack} {state : State}
    (limit_eq : prior.stack.limit = settings.maxStackSize)
    (passes : Passes program settings prior outer state) (busy : state.calls ≠ [])
    (scope : ScopeId) (name : String) :
    ∃ result, state.scopes.resolve scope name = some result ∧
      searched name (state.scopes.resolve scope name) = result := by
  obtain ⟨_, called, framed⟩ := passes.framed limit_eq busy
  obtain ⟨owner, found, _⟩ := framed.isTree.exists_owner scope name
  refine ⟨_, congrArg (Option.map _) found, ?_⟩
  rw [Scopes.resolve, found]
  rfl

theorem finish_framed {state : State} (framed : Framed settings [] [] state) :
    Framed settings [] [] (finish state).state := by
  unfold finish
  split
  · exact framed.report _
  · next value _ =>
    exact { framed.report (.executionFinished (some value)) with fits := Nat.zero_le _ }
  · exact framed

/-- Calls and tables are in step when a run has ended, with or without an error. -/
theorem execute_framed {fuel : Nat} {ending : Ending}
    (limit_eq : prior.stack.limit = settings.maxStackSize)
    (ended : execute program settings fuel prior = some ending) :
    ∃ outer called, (outer = [] ∨ outer = [initialFrame program]) ∧
      Framed settings outer called ending.state := by
  unfold execute at ended
  split at ended
  · cases ended
    exact ⟨[], [], .inl rfl, Framed.reset limit_eq⟩
  · next main found =>
    have started := @Framed.start program settings main prior limit_eq
    split at ended
    · cases ended
    · next cause state failed =>
      cases ended
      obtain ⟨called, framed⟩ := started.stopped (.inr rfl) failed
      exact ⟨_, called, .inr rfl, framed.report _⟩
    · next initialised settled =>
      have ready := started.settled (.inr rfl) settled
      split at ended
      · next cause state refused =>
        cases ended
        have framed := ready.undisturbed (Action.steady_of_call refused).toUndisturbed
        exact ⟨[], [], .inl rfl, framed.report _⟩
      · next entered called =>
        have framed := ready.entered (Action.entered_of_call called)
        split at ended
        · cases ended
        · next cause state failed =>
          cases ended
          obtain ⟨called, framed⟩ := framed.stopped (.inl rfl) failed
          exact ⟨[], called, .inl rfl, framed.report _⟩
        · next state settled =>
          cases ended
          exact ⟨[], [], .inl rfl, finish_framed (framed.settled (.inl rfl) settled)⟩

theorem Rested.limit_eq (rested : Rested program settings prior) :
    prior.stack.limit = settings.maxStackSize := by
  induction rested with
  | fresh => rfl
  | ran _ ended limit_eq =>
    obtain ⟨_, _, _, framed⟩ := execute_framed limit_eq ended
    exact framed.limit_eq

/-- In every run of any code, after any earlier runs, each call owns a table of its own for as long
as it is active, and the limits are kept. -/
theorem calls_own_their_tables (rested : Rested program settings prior) :
    (∀ outer state, Passes program settings prior outer state → state.calls ≠ [] →
      Orderly program settings outer state) ∧
    ∀ fuel ending, execute program settings fuel prior = some ending →
      ∃ outer called, (outer = [] ∨ outer = [initialFrame program]) ∧
        Framed settings outer called ending.state := by
  constructor
  · intro outer state passes busy
    obtain ⟨bottom, called, framed⟩ := passes.framed rested.limit_eq busy
    exact framed.orderly bottom
  · intro fuel ending ended
    exact execute_framed rested.limit_eq ended

end Runs

/-- Code that comes from no program: the global statements and the start function are the same
instructions, which call one function that returns and then the start function. -/
def tangled : CompiledProgram where
  code := #[.named .callFunc "leaf" "", .named .callFunc "main" "", .bare .returnVoid "",
    .bare .returnVoid ""]
  functions := .ofList
    [("leaf", ⟨⟨"leaf", "void", [], []⟩, 3⟩), ("main", ⟨⟨"main", "void", [], []⟩, 0⟩)]
  initAddress := 0

/-- The frame of the function that returns, when the global statements call it. -/
def leafFrame : Frame := ⟨"leaf", ⟨1⟩, 1⟩

/-- Settings under which `tangled` soon comes to its end. -/
def twoDeep : Settings where
  maxCallDepth := 2

/-- A run of `tangled` fails with all its calls active. The next one is orderly again: the function
that it calls first returns, and its table is released. -/
theorem tangled_is_orderly_again :
    ∃ ending state next, execute tangled twoDeep 4 (.initial twoDeep) = some ending ∧
      ending.outcome = .error (.recursionTooDeep 2) ∧ ending.state.calls.depth = 2 ∧
      Passes tangled twoDeep ending.state [initialFrame tangled] state ∧
      state.calls = [leafFrame, initialFrame tangled] ∧ state.scopes.size = 2 ∧
      Orderly tangled twoDeep [initialFrame tangled] state ∧
      Action.step tangled twoDeep state = .ok () next ∧ next.calls = [initialFrame tangled] ∧
      Released tangled leafFrame [initialFrame tangled] state next := by
  obtain ⟨ending, ended, failed, depth⟩ : ∃ ending,
      execute tangled twoDeep 4 (.initial twoDeep) = some ending ∧
        ending.outcome = .error (.recursionTooDeep 2) ∧ ending.state.calls.depth = 2 :=
    ⟨_, rfl, rfl, rfl⟩
  obtain ⟨state, advanced, active, size, fetched⟩ : ∃ state,
      advance tangled twoDeep 1
        (start tangled ⟨⟨"main", "void", [], []⟩, 0⟩ ending.state.reset) = some state ∧
          state.calls = [leafFrame, initialFrame tangled] ∧ state.scopes.size = 2 ∧
          tangled.code[state.pc]? = some (.bare .returnVoid "") := ⟨_, rfl, rfl, rfl, rfl⟩
  have passes : Passes tangled twoDeep ending.state [initialFrame tangled] state :=
    .initialiser rfl advanced
  have busy : state.calls ≠ [] := by simp [active]
  have orderly := (calls_own_their_tables (.ran .fresh ended)).1 _ state passes busy
  obtain ⟨next, stepped, left, released⟩ := orderly.returns _ _ _ active fetched (.inl rfl)
  exact ⟨ending, state, next, ended, failed, depth, passes, active, size, orderly, stepped, left,
    released⟩

end Machine

end StackLang
