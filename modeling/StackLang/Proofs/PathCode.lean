import StackLang.Proofs.PathUpdate

/-!
# The code that stores at the end of a path

It rebuilds the structs on the path from the innermost outwards, loading each of them again from the
variable at the root. Calls and tables stay as they are until the last instruction (`Arrived`), so
every load finds the same structs, and what is stored in the end is the old value with one field
replaced. The machine does so from every state, whatever its tables are and however many values wait
on its stack (`storePath_assigns`).
-/

namespace StackLang

namespace Machine

/-- From a state the machine goes on to another one, or to the error that stops it, and up to there
a stretch of the code is carried out in the innermost of the given calls. -/
def Runs (program : CompiledProgram) (settings : Settings) (stretch : Stretch) (calls : CallStack)
    (state : State) (outcome : EStateM.Result RunError State Unit) : Prop :=
  ∃ count, Walk program settings (Occupied stretch calls) count state outcome

/-- The machine has come to an address with the given values on its stack, and calls, tables and
the limit of the stack are those of the state it comes from. -/
structure Arrived (origin : State) (address : Nat) (values : List Value) (state : State) : Prop
    where
  pc_eq : state.pc = address
  values_eq : state.stack.values = values
  limit_eq : state.stack.limit = origin.stack.limit
  calls_eq : state.calls = origin.calls
  scopes_eq : state.scopes = origin.scopes

/-- An outcome is that of a computation. An error leaves calls and tables as they were. -/
def Delivers {α : Type} (origin : State) (outcome : EStateM.Result RunError State Unit)
    (result : Except RunError α) (post : α → State → Prop) : Prop :=
  match result with
  | .ok value => ∃ next, outcome = .ok () next ∧ post value next
  | .error cause => ∃ final, outcome = .error cause final ∧ final.calls = origin.calls ∧
      final.scopes = origin.scopes

section Achieving

variable (program : CompiledProgram) (settings : Settings) (stretch : Stretch) (origin : State)

/-- From a state the machine runs as a computation goes, in a stretch of the code. -/
def Achieves {α : Type} (state : State) (result : Except RunError α)
    (post : α → State → Prop) : Prop :=
  ∃ outcome, Runs program settings stretch origin.calls state outcome ∧
    Delivers origin outcome result post

end Achieving

section Paths

variable {program : CompiledProgram} {settings : Settings} {stretch : Stretch}
  {origin state : State} {address : Nat} {values : List Value} {tag : String}

theorem Runs.trans {calls : CallStack} {middle : State}
    {outcome : EStateM.Result RunError State Unit}
    (first : Runs program settings stretch calls state (.ok () middle))
    (second : Runs program settings stretch calls middle outcome) :
    Runs program settings stretch calls state outcome := by
  obtain ⟨count, walk⟩ := first
  obtain ⟨more, later⟩ := second
  exact ⟨count + more, walk.trans later⟩

/-- A run that has left the stretch was not stopped in it. -/
theorem Runs.not_left {count : Nat} {calls : CallStack} {last final : State} {cause : RunError}
    (stopped : Runs program settings stretch calls state (.error cause final))
    (advanced : advance program settings count state = some last) (calls_eq : last.calls = calls)
    (beyond : stretch.stop ≤ last.pc) : False := by
  obtain ⟨total, walk⟩ := stopped
  rcases walk.advance_cases nofun advanced with before | ⟨_, same⟩
  · cases walk.seen_of_advance before advanced with
    | inside _ _ below => exact absurd below (Nat.not_lt.mpr beyond)
    | called active _ _ =>
      rw [calls_eq] at active
      have shorter := active.length_le
      rw [List.length_cons] at shorter
      exact absurd shorter (Nat.not_succ_le_self _)
  · cases same

theorem Achieves.done {α : Type} {value : α} {post : α → State → Prop} (holds : post value state) :
    Achieves program settings stretch origin state (.ok value) post :=
  ⟨.ok () state, ⟨0, .rest state⟩, state, rfl, holds⟩

theorem Achieves.bind {α β : Type} {first : Except RunError α} {next : α → Except RunError β}
    {middle : α → State → Prop} {post : β → State → Prop}
    (before : Achieves program settings stretch origin state first middle)
    (later : ∀ value between, middle value between →
      Achieves program settings stretch origin between (next value) post) :
    Achieves program settings stretch origin state (first >>= next) post := by
  cases first with
  | error cause =>
    obtain ⟨_, runs, final, rfl, unchanged⟩ := before
    exact ⟨_, runs, final, rfl, unchanged⟩
  | ok value =>
    obtain ⟨_, runs, between, rfl, reached⟩ := before
    obtain ⟨outcome, onward, delivers⟩ := later value between reached
    exact ⟨outcome, runs.trans onward, delivers⟩

/-- The machine may run on after a computation and keep its result. -/
theorem Achieves.andThen {α : Type} {result : Except RunError α} {middle post : α → State → Prop}
    (before : Achieves program settings stretch origin state result middle)
    (later : ∀ value between, middle value between →
      Achieves program settings stretch origin between (.ok value) post) :
    Achieves program settings stretch origin state result post := by
  have both : Achieves program settings stretch origin state (result >>= pure) post :=
    before.bind later
  rwa [bind_pure] at both

namespace Arrived

theorem currentScope_eq (arrived : Arrived origin address values state) :
    state.currentScope = origin.currentScope := by
  rw [State.currentScope, arrived.calls_eq, State.currentScope]

theorem pop {value : Value} (arrived : Arrived origin address (value :: values) state) :
    ∃ next, Action.pop state = .ok value next ∧ Arrived origin address values next := by
  exact ⟨_, Action.pop_of_cons arrived.values_eq, { arrived with values_eq := rfl }⟩

/-- A value finds its place on the stack, or the stack is full. -/
theorem push (arrived : Arrived origin address values state) (value : Value) :
    Delivers origin (Action.push value state)
      (if origin.stack.limit ≤ values.length then .error (.stackOverflow origin.stack.limit)
        else .ok value)
      fun result next => Arrived origin address (result :: values) next := by
  have size_eq : state.stack.size = values.length := by
    rw [state.stack.size_eq, arrived.values_eq]
  unfold Action.push OperandStack.push
  rw [size_eq, arrived.limit_eq]
  by_cases full : origin.stack.limit ≤ values.length
  · rw [if_pos full, if_pos full]
    exact ⟨state, rfl, arrived.calls_eq, arrived.scopes_eq⟩
  · rw [if_neg full, if_neg full]
    exact ⟨_, rfl, { arrived with values_eq := congrArg (value :: ·) arrived.values_eq }⟩

/-- Fetching an instruction and carrying it out is one step of the run. -/
theorem step {α : Type} {instruction : Instruction} {result : Except RunError α}
    {post : α → State → Prop} (arrived : Arrived origin address values state)
    (busy : origin.calls ≠ []) (fetched : program.code.FetchesWithin stretch address instruction)
    (delivers : ∀ next, Arrived origin (address + 1) values next →
      Delivers origin (Action.perform program settings instruction next) result post) :
    Achieves program settings stretch origin state result post := by
  have active : state.calls ≠ [] := by rwa [arrived.calls_eq]
  have stepped : Action.step program settings state = Action.perform program settings instruction
      (Action.fetched settings instruction state) :=
    Action.step_of_fetch (arrived.pc_eq ▸ fetched.fetched)
  have ready : Arrived origin (address + 1) values
      (Action.fetched settings instruction state) := by
    unfold Action.fetched
    split <;> exact { arrived with pc_eq := congrArg (· + 1) arrived.pc_eq }
  have occupied : Occupied stretch origin.calls state :=
    .inside arrived.calls_eq (arrived.pc_eq ▸ fetched.above) (arrived.pc_eq ▸ fetched.below)
  have delivered := delivers _ ready
  rw [← stepped] at delivered
  cases outcome : Action.step program settings state with
  | ok _ next =>
    rw [outcome] at delivered
    exact ⟨_, ⟨1, .onward occupied active outcome (.rest next)⟩, delivered⟩
  | error cause final =>
    rw [outcome] at delivered
    exact ⟨_, ⟨1, .stop occupied active outcome⟩, delivered⟩

end Arrived

/-- Reading a variable and holding its value above a number of others. -/
def State.load (origin : State) (height : Nat) (name : String) : Except RunError Value := do
  let value ← searched name (origin.scopes.resolve origin.currentScope name)
  if origin.stack.limit ≤ height then .error (.stackOverflow origin.stack.limit) else .ok value

/-- The machine has come to an address behind the instruction that stores a variable. -/
structure Stored (origin : State) (place : ScopeId) (name : String) (value : Value)
    (address : Nat) (values : List Value) (state : State) : Prop where
  pc_eq : state.pc = address
  values_eq : state.stack.values = values
  calls_eq : state.calls = origin.calls
  scopes_eq : state.scopes = origin.scopes.define place name value

theorem State.load_eq_ok_iff {height : Nat} {name : String} {value : Value} :
    origin.load height name = .ok value ↔
      origin.scopes.resolve origin.currentScope name = some (.ok value) ∧
        height < origin.stack.limit := by
  unfold State.load
  rw [← searched_eq_ok_iff]
  cases searched name (origin.scopes.resolve origin.currentScope name) with
  | error cause => simp [Bind.bind, Except.bind]
  | ok found =>
    by_cases full : origin.stack.limit ≤ height
    · simp [Bind.bind, Except.bind, full]
    · simp [Bind.bind, Except.bind, full, Nat.not_le.mp full]

namespace Arrived

variable (busy : origin.calls ≠ [])

include busy

theorem loadVariable {name : String} (arrived : Arrived origin address values state)
    (fetched : program.code.FetchesWithin stretch address (.named .loadVar name tag)) :
    Achieves program settings stretch origin state (origin.load values.length name)
      fun value next => Arrived origin (address + 1) (value :: values) next := by
  refine arrived.step busy fetched fun next ready => ?_
  unfold State.load
  simp only [Action.perform, Instruction.named, Value.asString, Action.lift_ok_bind,
    Action.bind_get, ready.scopes_eq, ready.currentScope_eq]
  cases searched name (origin.scopes.resolve origin.currentScope name) with
  | error cause => exact ⟨next, rfl, ready.calls_eq, ready.scopes_eq⟩
  | ok value => exact ready.push value

/-- A struct on the stack makes room for what replaces it. -/
theorem loadField {whole : Value} {name : String}
    (fits : values.length < origin.stack.limit)
    (arrived : Arrived origin address (whole :: values) state)
    (fetched : program.code.FetchesWithin stretch address (.named .loadField name tag)) :
    Achieves program settings stretch origin state
      (whole.asStruct >>= fun record => Record.field record name)
      fun value next => Arrived origin (address + 1) (value :: values) next := by
  refine arrived.step busy fetched fun next ready => ?_
  obtain ⟨popped, took, readyPopped⟩ := ready.pop
  simp only [Action.perform, Instruction.named, Value.asString, Action.bind_of_ok took]
  cases whole.asStruct with
  | error cause => exact ⟨popped, rfl, readyPopped.calls_eq, readyPopped.scopes_eq⟩
  | ok record =>
    simp only [Action.lift_ok_bind]
    show Delivers origin _ (Record.field record name) _
    cases Record.field record name with
    | error cause => exact ⟨popped, rfl, readyPopped.calls_eq, readyPopped.scopes_eq⟩
    | ok value =>
      have pushed := readyPopped.push value
      rwa [if_neg (Nat.not_le.mpr fits)] at pushed

theorem storeField {whole value : Value} {name : String}
    (fits : values.length < origin.stack.limit)
    (arrived : Arrived origin address (whole :: value :: values) state)
    (fetched : program.code.FetchesWithin stretch address (.named .storeField name tag)) :
    Achieves program settings stretch origin state whole.asStruct
      fun record next => Arrived origin (address + 1)
        (.struct (record.insert name value) :: values) next := by
  refine arrived.step busy fetched fun next ready => ?_
  obtain ⟨popped, took, readyPopped⟩ := ready.pop
  obtain ⟨rest, tookValue, readyRest⟩ := readyPopped.pop
  simp only [Action.perform, Instruction.named, Value.asString, Action.bind_of_ok took]
  cases whole.asStruct with
  | error cause => exact ⟨popped, rfl, readyPopped.calls_eq, readyPopped.scopes_eq⟩
  | ok record =>
    simp only [Action.lift_ok_bind, Action.bind_of_ok tookValue]
    have pushed := readyRest.push (.struct (record.insert name value))
    rw [if_neg (Nat.not_le.mpr fits)] at pushed
    exact pushed

/-- Loading members one after the other follows their path. -/
theorem loadMembers {whole : Value} {members : List String}
    (fits : values.length < origin.stack.limit)
    (arrived : Arrived origin address (whole :: values) state)
    (holds : program.code.HoldsWithin stretch address
      (members.map fun name => .named .loadField name tag)) :
    Achieves program settings stretch origin state (whole.follow members)
      fun part next => Arrived origin (address + members.length) (part :: values) next := by
  induction members generalizing whole address state with
  | nil => exact .done arrived
  | cons name others inductionHypothesis =>
    have unfolded : whole.follow (name :: others) =
        (whole.asStruct >>= fun record => Record.field record name) >>= fun part =>
          part.follow others := by
      rw [bind_assoc]
      rfl
    have length_eq : address + (name :: others).length = address + 1 + others.length := by
      rw [List.length_cons]
      omega
    rw [unfolded, length_eq]
    exact (arrived.loadField busy fits holds.head).bind fun part between ready =>
      inductionHypothesis ready holds.tail

/-- Loading a path reads its variable and follows its members. -/
theorem loadPath {root : String} {members : List String} {whole : Value}
    (loads : origin.load values.length root = .ok whole)
    (arrived : Arrived origin address values state)
    (holds : program.code.HoldsWithin stretch address (Instruction.loadPath root members tag)) :
    Achieves program settings stretch origin state (whole.follow members)
      fun part next => Arrived origin (address + (members.length + 1)) (part :: values) next := by
  have fits := (State.load_eq_ok_iff.mp loads).2
  have variableLoaded : Achieves program settings stretch origin state (.ok whole)
      fun value next => Arrived origin (address + 1) (value :: values) next :=
    loads ▸ arrived.loadVariable busy holds.head
  rw [Nat.add_comm members.length, ← Nat.add_assoc]
  show Achieves program settings stretch origin state
    (.ok whole >>= fun loaded => loaded.follow members) _
  exact variableLoaded.bind fun loaded between ready =>
    ready.loadMembers busy fits holds.tail

/-- Rebuilding the structs on a path, whose members are given from the innermost outwards, comes to
the instruction that stores the whole. Each struct is loaded again from the variable at the root,
which holds what it held before. -/
theorem rebuild {root : String} {members : List String} {whole value : Value}
    (loads : origin.load (values.length + 1) root = .ok whole)
    (arrived : Arrived origin address (value :: values) state)
    (holds : program.code.HoldsWithin stretch address (Instruction.storePath root tag members)) :
    Achieves program settings stretch origin state (whole.setPath members.reverse value)
      fun changed next => ∃ last, Arrived origin last (changed :: values) next ∧
        program.code.FetchesWithin stretch last (.named .storeVar root tag) ∧
        last + 1 = address + (Instruction.storePath root tag members).length := by
  have fits := (State.load_eq_ok_iff.mp loads).2
  induction members generalizing value address state with
  | nil => exact .done ⟨address, arrived, holds.head, rfl⟩
  | cons name outer inductionHypothesis =>
    have loadLength : (Instruction.loadPath root outer.reverse tag).length = outer.length + 1 := by
      simp [Instruction.loadPath]
    have length_eq : address + (Instruction.storePath root tag (name :: outer)).length =
        address + (outer.length + 1) + 1 + (Instruction.storePath root tag outer).length := by
      simp only [Instruction.storePath, List.length_append, List.length_cons, loadLength]
      omega
    have rest := holds.right
    rw [loadLength] at rest
    have loaded : Achieves program settings stretch origin state (whole.follow outer.reverse)
        fun part next => Arrived origin (address + (outer.length + 1)) (part :: value :: values)
          next := by
      rw [← outer.length_reverse]
      exact arrived.loadPath busy loads holds.left
    rw [List.reverse_cons, Value.setPath_concat, length_eq]
    exact loaded.bind fun part between ready =>
      (ready.storeField busy (Nat.lt_of_succ_lt fits) rest.head).bind fun record onward stored =>
        inductionHypothesis stored rest.tail

/-- The last instruction stores the whole in the nearest variable of its name. -/
theorem storeVariable {name : String} {value : Value} {place : ScopeId}
    (owner : origin.scopes.owner? origin.currentScope name = some (some place))
    (arrived : Arrived origin address (value :: values) state)
    (fetched : program.code.FetchesWithin stretch address (.named .storeVar name tag)) :
    Achieves program settings stretch origin state (.ok value)
      fun stored final => Stored origin place name stored (address + 1) values final := by
  refine arrived.step busy fetched fun next ready => ?_
  obtain ⟨popped, took, readyPopped⟩ := ready.pop
  have assigned : popped.scopes.assign popped.currentScope name value =
      some (.ok (origin.scopes.define place name value)) := by
    rw [readyPopped.scopes_eq, readyPopped.currentScope_eq, Scopes.assign, owner]
    rfl
  simp only [Action.perform, Instruction.named, Value.asString, Action.bind_of_ok took,
    Action.lift_ok_bind, Action.bind_get, assigned, searched, Option.getD_some, Action.set_apply]
  exact ⟨_, rfl, readyPopped.pc_eq, readyPopped.values_eq, readyPopped.calls_eq, rfl⟩

/-- Storing at the end of a path with members puts the value of its variable, with the field
replaced, in the place of the old one. -/
theorem storePath {root : String} {members : List String} {value : Value}
    (nonempty : members ≠ [])
    (arrived : Arrived origin address (value :: values) state)
    (holds : program.code.HoldsWithin stretch address
      (Instruction.storePath root tag members.reverse)) :
    Achieves program settings stretch origin state
      (origin.load (values.length + 1) root >>= fun whole => whole.setPath members value)
      fun changed final => ∃ place,
        origin.scopes.owner? origin.currentScope root = some (some place) ∧
          Stored origin place root changed
            (address + (Instruction.storePath root tag members.reverse).length) values final := by
  cases loads : origin.load (values.length + 1) root with
  | error cause =>
    -- The code begins by loading the variable, so nothing else can have happened before.
    obtain ⟨name, outer, reversed⟩ := List.exists_cons_of_ne_nil
      (List.reverse_ne_nil_iff.mpr nonempty)
    rw [reversed] at holds
    have failed : Achieves program settings stretch origin state
        (origin.load (values.length + 1) root)
        fun whole next => Arrived origin (address + 1) (whole :: value :: values) next :=
      arrived.loadVariable busy holds.left.head
    rw [loads] at failed
    exact failed
  | ok whole =>
    obtain ⟨place, owner, _⟩ := Scopes.resolve_eq_ok_iff.mp (State.load_eq_ok_iff.mp loads).1
    have rebuilt : Achieves program settings stretch origin state
        (whole.setPath members.reverse.reverse value) _ := arrived.rebuild busy loads holds
    rw [List.reverse_reverse] at rebuilt
    show Achieves program settings stretch origin state (whole.setPath members value) _
    refine rebuilt.andThen ?_
    rintro changed between ⟨last, ready, fetched, reaches⟩
    rw [← reaches]
    refine (ready.storeVariable busy owner fetched).andThen ?_
    exact fun stored final reached => .done ⟨place, owner, reached⟩

end Arrived

end Paths

/-- All members of a path from a variable but the last lead from struct to struct. -/
def State.Leads (state : State) (root : String) (members : List String) : Prop :=
  ∃ whole, state.scopes.resolve state.currentScope root = some (.ok whole) ∧ whole.Leads members

/-- The first step along a path from a variable that cannot be taken, with the error that it is:
there is no such variable, or one of the members offends. -/
inductive State.Offends (state : State) (root : String) (members : List String) :
    RunError → Prop where
  | unbound (nowhere : state.scopes.owner? state.currentScope root = some none) :
      Offends state root members (.undefinedVariable root)
  | member {whole : Value} {cause : RunError}
      (resolved : state.scopes.resolve state.currentScope root = some (.ok whole))
      (offends : whole.Offends members cause) : Offends state root members cause

/-- The nearest variable of a name has been given its old value with the field at the end of a path
replaced, which is what is read there now. No field off the path and no other variable has changed.
-/
structure Replaced (root : String) (members : List String) (value : Value) (place : ScopeId)
    (whole changed : Value) (before after : State) : Prop where
  nearest : before.scopes.owner? before.currentScope root = some (some place)
  held : before.scopes.local? place root = some whole
  changed_eq : whole.setPath members value = .ok changed
  holds : after.scopes.local? place root = some changed
  resolves : after.scopes.resolve after.currentScope root = some (.ok changed)
  reads : changed.follow members = .ok value
  fields : ∀ path, ¬ path <+: members → ¬ members <+: path →
    changed.follow path = whole.follow path
  others : ∀ other name, other ≠ place ∨ name ≠ root →
    after.scopes.local? other name = before.scopes.local? other name

section Assignments

variable (program : CompiledProgram) (settings : Settings) (stretch : Stretch)

/-- From a state in which a value has been computed above others, the machine assigns it to the end
of a path and comes to the address behind the code, if the members lead there; otherwise the first
offence stops it, and no variable has changed. Up to there it carries out a stretch of the code. -/
structure Assigns (root : String) (members : List String) (value : Value) (values : List Value)
    (address : Nat) (state : State) : Prop where
  succeeds : state.Leads root members → ∃ place whole changed final,
    Runs program settings stretch state.calls state (.ok () final) ∧
      Replaced root members value place whole changed state final ∧
      final.pc = address ∧ final.stack.values = values ∧ final.calls = state.calls
  fails : ¬ state.Leads root members → ∃ cause final, state.Offends root members cause ∧
    Runs program settings stretch state.calls state (.error cause final) ∧
      final.scopes = state.scopes

end Assignments

section Storing

variable {program : CompiledProgram} {settings : Settings} {stretch : Stretch}
  {state final : State} {root : String} {members : List String} {value whole changed : Value}
  {values : List Value} {place : ScopeId} {address : Nat}

theorem Stored.replaced
    (resolved : state.scopes.resolve state.currentScope root = some (.ok whole))
    (owner : state.scopes.owner? state.currentScope root = some (some place))
    (replaced : whole.setPath members value = .ok changed)
    (stored : Stored state place root changed address values final) :
    Replaced root members value place whole changed state final where
  nearest := owner
  held := by
    obtain ⟨same, found, held⟩ := Scopes.resolve_eq_ok_iff.mp resolved
    cases owner.symm.trans found
    exact held
  changed_eq := replaced
  holds := by
    have live := Scopes.isLive_of_local? (Scopes.local?_owner owner)
    rw [stored.scopes_eq]
    exact Scopes.local?_define_self live root changed
  resolves := by
    have scope_eq : final.currentScope = state.currentScope := by
      rw [State.currentScope, stored.calls_eq, State.currentScope]
    rw [scope_eq, stored.scopes_eq]
    exact Scopes.resolve_define_owner owner changed
  reads := (Value.updates_of_setPath replaced).follow_eq
  fields := fun _ notAbove notBelow =>
    (Value.updates_of_setPath replaced).follow_apart notAbove notBelow
  others := by
    intro other name different
    rw [stored.scopes_eq]
    exact Scopes.local?_define_other state.scopes different changed

/-- From any state with a value on its stack in which the search for the variable ends, the code
that stores at the end of a path assigns the value, unless the stack has no room for the value of
the variable. -/
theorem storePath_assigns {tag : String} (nonempty : members ≠ []) (busy : state.calls ≠ [])
    (values_eq : state.stack.values = value :: values)
    (ends : state.scopes.resolve state.currentScope root ≠ none)
    (holds : program.code.HoldsWithin stretch state.pc
      (Instruction.storePath root tag members.reverse)) :
    (∃ final, Runs program settings stretch state.calls state
      (.error (.stackOverflow state.stack.limit) final)) ∨
      Assigns program settings stretch root members value values
        (state.pc + (Instruction.storePath root tag members.reverse).length) state := by
  have arrived : Arrived state state.pc (value :: values) state := ⟨rfl, values_eq, rfl, rfl, rfl⟩
  obtain ⟨outcome, runs, delivers⟩ : Achieves program settings stretch state state _ _ :=
    arrived.storePath busy nonempty holds
  obtain ⟨answer, resolved⟩ := Option.ne_none_iff_exists'.mp ends
  cases answer with
  | error cause =>
    obtain ⟨nowhere, rfl⟩ := Scopes.resolve_eq_error_iff.mp resolved
    have loads : state.load (values.length + 1) root = .error (.undefinedVariable root) := by
      rw [State.load, resolved]
      rfl
    rw [loads] at delivers
    obtain ⟨final, rfl, _, unchanged⟩ := delivers
    refine .inr ⟨?_, fun _ => ⟨_, final, .unbound nowhere, runs, unchanged⟩⟩
    rintro ⟨whole, found, _⟩
    cases resolved.symm.trans found
  | ok whole =>
    by_cases full : state.stack.limit ≤ values.length + 1
    · have loads : state.load (values.length + 1) root =
          .error (.stackOverflow state.stack.limit) := by
        rw [State.load, resolved]
        exact if_pos full
      rw [loads] at delivers
      obtain ⟨final, rfl, _⟩ := delivers
      exact .inl ⟨final, runs⟩
    · rw [State.load_eq_ok_iff.mpr ⟨resolved, Nat.not_le.mp full⟩] at delivers
      change Delivers state outcome (whole.setPath members value) _ at delivers
      rcases whole.setPath_cases members value with
        ⟨changed, replaced, updates⟩ | ⟨cause, failed, offends⟩
      · rw [replaced] at delivers
        obtain ⟨final, rfl, place, owner, stored⟩ := delivers
        refine .inr ⟨fun _ => ?_, fun blocked => ?_⟩
        · exact ⟨place, whole, changed, final, runs, stored.replaced resolved owner replaced,
            stored.pc_eq, stored.values_eq, stored.calls_eq⟩
        · exact absurd ⟨whole, resolved, updates.leads nonempty⟩ blocked
      · rw [failed] at delivers
        obtain ⟨final, rfl, _, unchanged⟩ := delivers
        refine .inr ⟨?_, fun _ => ⟨cause, final, .member resolved offends, runs, unchanged⟩⟩
        rintro ⟨same, found, leads⟩
        cases resolved.symm.trans found
        exact absurd leads offends.not_leads

end Storing

end Machine

end StackLang
