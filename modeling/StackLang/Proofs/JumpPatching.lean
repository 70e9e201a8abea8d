import StackLang.Proofs.ReturnPaths

/-!
# Jumps that are patched

An emitter is asked to tag, to emit and to patch, in any order and as often as one likes, as long as
it has given out the labels that are patched. Emissions push one instruction each, and a patch
changes one operand (`getElem?_apply`, `getElem?_patch`). So what is emitted at an address stays
there, and over any sequence of operations only the last patch of its label decides where a jump
leads: to the instruction emitted next (`patching_is_disciplined`).
-/

namespace StackLang

namespace Emitter

/-- What an emitter can be asked to do. -/
inductive Operation where
  | setTag (tag : String)
  | emit (opcode : Opcode)
  | emitWith (opcode : Opcode) (operand : Value)
  | emitNamed (opcode : Opcode) (name : String)
  | emitConstant (value : Value)
  | emitJump (opcode : Opcode)
  | patch (label : JumpLabel)

namespace Operation

/-- The emitter after an operation. -/
def apply (emitter : Emitter) : Operation → Emitter
  | .setTag tag => emitter.setTag tag
  | .emit opcode => emitter.emit opcode
  | .emitWith opcode operand => emitter.emitWith opcode operand
  | .emitNamed opcode name => emitter.emitNamed opcode name
  | .emitConstant value => emitter.emitConstant value
  | .emitJump opcode => emitter.emitJump opcode
  | .patch label => emitter.patch label

/-- The labels that an operation gives out. -/
def issues (emitter : Emitter) : Operation → List JumpLabel
  | .emitJump _ => [emitter.nextLabel]
  | _ => []

/-- The opcode and the operand that are emitted, if any are. A jump has no distance yet. -/
def emits? : Operation → Option (Opcode × Value)
  | .emit opcode => some (opcode, .none)
  | .emitWith opcode operand => some (opcode, operand)
  | .emitNamed opcode name => some (opcode, .string name)
  | .emitConstant value => some (.loadConst, value)
  | .emitJump opcode => some (opcode, .int 0)
  | .setTag _ | .patch _ => none

/-- The tag that is set, if one is. -/
def sets? : Operation → Option String
  | .setTag tag => some tag
  | _ => none

/-- If a label is patched, it is one of the given. -/
def PatchesOneOf (labels : List JumpLabel) : Operation → Prop
  | .patch label => label ∈ labels
  | _ => True

instance (labels : List JumpLabel) : (operation : Operation) →
    Decidable (operation.PatchesOneOf labels)
  | .patch label => inferInstanceAs (Decidable (label ∈ labels))
  | .setTag _ | .emit _ | .emitWith _ _ | .emitNamed _ _ | .emitConstant _ | .emitJump _ =>
    .isTrue trivial

end Operation

/-- The emitter after operations, one after the other. -/
def perform (emitter : Emitter) (operations : List Operation) : Emitter :=
  operations.foldl Operation.apply emitter

/-- Labels are patched only if the emitter has given them out before. The given ones it has given
out before the first operation. -/
def PatchesOwn (emitter : Emitter) (labels : List JumpLabel) : List Operation → Prop
  | [] => True
  | operation :: rest => operation.PatchesOneOf labels ∧
      PatchesOwn (operation.apply emitter) (operation.issues emitter ++ labels) rest

instance decidablePatchesOwn : (emitter : Emitter) → (labels : List JumpLabel) →
    (operations : List Operation) → Decidable (emitter.PatchesOwn labels operations)
  | _, _, [] => .isTrue trivial
  | emitter, labels, operation :: rest =>
    have := decidablePatchesOwn (operation.apply emitter) (operation.issues emitter ++ labels) rest
    inferInstanceAs (Decidable (_ ∧ _))

/-- How many instructions are emitted. -/
def emissions (operations : List Operation) : Nat :=
  operations.countP fun operation => operation.emits?.isSome

/-- The tag that was set last. -/
def lastTag (operations : List Operation) : String :=
  (operations.filterMap Operation.sets?).getLast?.getD ""

/-- An instruction is what an operation emitted, between the operations before and after it. Only as
a jump that has been patched may it have another operand. -/
structure EmittedBy (before : List Operation) (operation : Operation) (after : List Operation)
    (instruction : Instruction) : Prop where
  tag : instruction.tag = lastTag before
  content : ∃ operand, operation.emits? = some (instruction.opcode, operand) ∧
    (instruction.operand ≠ operand →
      operation = .emitJump instruction.opcode ∧ .patch ⟨emissions before⟩ ∈ after)

variable {emitter : Emitter} {operation other : Operation} {before between after : List Operation}
  {operations : List Operation} {label : JumpLabel} {labels : List JumpLabel} {address : Nat}
  {instruction : Instruction} {opcode : Opcode} {operand : Value}

theorem perform_append (emitter : Emitter) (first second : List Operation) :
    emitter.perform (first ++ second) = (emitter.perform first).perform second :=
  List.foldl_append

theorem perform_cons (emitter : Emitter) (operation : Operation) (rest : List Operation) :
    emitter.perform (operation :: rest) = (operation.apply emitter).perform rest := rfl

theorem emissions_append (first second : List Operation) :
    emissions (first ++ second) = emissions first + emissions second :=
  List.countP_append

theorem emissions_cons_of_emits (emits : operation.emits?.isSome = true) (rest : List Operation) :
    emissions (operation :: rest) = emissions rest + 1 :=
  List.countP_cons_of_pos emits

theorem emissions_cons_of_not_emits (silent : operation.emits? = none) (rest : List Operation) :
    emissions (operation :: rest) = emissions rest :=
  List.countP_cons_of_neg (by simp [silent])

/-! ### What one operation does -/

theorem apply_of_emits (emits : operation.emits? = some (opcode, operand)) (emitter : Emitter) :
    operation.apply emitter = emitter.emitWith opcode operand := by
  cases operation <;> cases emits <;> rfl

theorem offset_apply (operation : Operation) (emitter : Emitter) :
    (operation.apply emitter).offset = emitter.offset + emissions [operation] := by
  cases emits : operation.emits? with
  | some content =>
    rw [apply_of_emits emits, offset_emitWith, emissions_cons_of_emits (by simp [emits])]
    rfl
  | none =>
    rw [emissions_cons_of_not_emits emits]
    cases operation with
    | setTag tag => rfl
    | patch label => exact offset_patch emitter label
    | _ => cases emits

theorem tag_apply (operation : Operation) (emitter : Emitter) :
    (operation.apply emitter).tag = operation.sets?.getD emitter.tag := by
  cases operation <;> rfl

theorem getElem?_emitWith (emitter : Emitter) (opcode : Opcode) (operand : Value)
    (address : Nat) : (emitter.emitWith opcode operand).code[address]? =
      if address = emitter.offset then some ⟨opcode, operand, emitter.tag⟩
      else emitter.code[address]? :=
  Array.getElem?_push

theorem getElem?_patch (emitter : Emitter) (label : JumpLabel) (address : Nat) :
    (emitter.patch label).code[address]? =
      if label.address = address then
        emitter.code[address]?.map ({ · with operand := .int (emitter.distance label) })
      else emitter.code[address]? :=
  Array.getElem?_modify

/-- An operation leaves the instructions that stand as they are, except one that it patches. -/
theorem getElem?_apply (inside : address < emitter.offset)
    (apart : operation ≠ .patch ⟨address⟩) :
    (operation.apply emitter).code[address]? = emitter.code[address]? := by
  cases emits : operation.emits? with
  | some content =>
    rw [apply_of_emits emits, getElem?_emitWith, if_neg (Nat.ne_of_lt inside)]
  | none =>
    cases operation with
    | setTag tag => rfl
    | patch label =>
      refine (getElem?_patch emitter label address).trans (if_neg ?_)
      rintro rfl
      exact apart rfl
    | _ => cases emits

/-- Of an instruction that stands, an operation changes at most the operand. -/
theorem exists_operand_apply (present : emitter.code[address]? = some instruction)
    (operation : Operation) :
    ∃ operand, (operation.apply emitter).code[address]? = some { instruction with operand } := by
  have inside : address < emitter.offset := (Array.getElem?_eq_some_iff.mp present).1
  by_cases patched : operation = .patch ⟨address⟩
  · subst patched
    refine ⟨.int (emitter.distance ⟨address⟩), (getElem?_patch emitter ⟨address⟩ address).trans ?_⟩
    rw [if_pos rfl, present]
    rfl
  · exact ⟨instruction.operand, (getElem?_apply inside patched).trans present⟩

/-! ### What sequences of operations do -/

theorem offset_perform (emitter : Emitter) (operations : List Operation) :
    (emitter.perform operations).offset = emitter.offset + emissions operations := by
  induction operations generalizing emitter with
  | nil => rfl
  | cons operation rest inductionHypothesis =>
    have both : emissions (operation :: rest) = emissions [operation] + emissions rest :=
      emissions_append [operation] rest
    rw [both, ← Nat.add_assoc, ← offset_apply, perform_cons, inductionHypothesis]

theorem tag_perform (emitter : Emitter) (operations : List Operation) :
    (emitter.perform operations).tag =
      (operations.filterMap Operation.sets?).getLast?.getD emitter.tag := by
  induction operations generalizing emitter with
  | nil => rfl
  | cons operation rest inductionHypothesis =>
    rw [perform_cons, inductionHypothesis, tag_apply, List.filterMap_cons]
    cases operation.sets? with
    | none => rfl
    | some tag => simp [List.getLast?_cons]

theorem offset_new (operations : List Operation) :
    (perform {} operations).offset = emissions operations :=
  (offset_perform {} operations).trans (Nat.zero_add _)

theorem tag_new (operations : List Operation) :
    (perform {} operations).tag = lastTag operations :=
  tag_perform {} operations

theorem getElem?_perform (inside : address < emitter.offset)
    (apart : .patch ⟨address⟩ ∉ operations) :
    (emitter.perform operations).code[address]? = emitter.code[address]? := by
  induction operations generalizing emitter with
  | nil => rfl
  | cons operation rest inductionHypothesis =>
    rw [List.mem_cons, not_or] at apart
    have grown : address < (operation.apply emitter).offset := by
      rw [offset_apply]
      omega
    rw [perform_cons, inductionHypothesis grown apart.2, getElem?_apply inside (Ne.symm apart.1)]

theorem exists_operand_perform (present : emitter.code[address]? = some instruction)
    (operations : List Operation) :
    ∃ operand, (emitter.perform operations).code[address]? =
      some { instruction with operand } := by
  induction operations generalizing emitter instruction with
  | nil => exact ⟨instruction.operand, present⟩
  | cons operation rest inductionHypothesis =>
    obtain ⟨_, kept⟩ := exists_operand_apply present operation
    obtain ⟨operand, keptOn⟩ := inductionHypothesis kept
    exact ⟨operand, keptOn⟩

/-! ### Where operations stand in a sequence -/

theorem emissions_lt (before : List Operation) (emits : operation.emits?.isSome = true)
    (after : List Operation) : emissions before < emissions (before ++ operation :: after) := by
  rw [emissions_append, emissions_cons_of_emits emits]
  omega

/-- For every address there is an operation that emits there. -/
theorem exists_emission (inside : address < emissions operations) :
    ∃ before operation after, operations = before ++ operation :: after ∧
      operation.emits?.isSome = true ∧ emissions before = address := by
  induction operations using List.reverseRecOn with
  | nil => cases inside
  | append_singleton front last inductionHypothesis =>
    by_cases earlier : address < emissions front
    · obtain ⟨before, operation, after, rfl, emits, position⟩ := inductionHypothesis earlier
      exact ⟨before, operation, after ++ [last], by simp, emits, position⟩
    · rw [emissions_append] at inside
      cases emits : last.emits? with
      | none =>
        rw [emissions_cons_of_not_emits emits] at inside
        exact absurd inside earlier
      | some content =>
        rw [emissions_cons_of_emits (by simp [emits])] at inside
        refine ⟨front, last, [], rfl, by simp [emits], ?_⟩
        have none : emissions [] = 0 := rfl
        omega

/-- No two operations emit at one address. -/
theorem emission_unique {earlier later : List Operation}
    (same : before ++ operation :: after = earlier ++ other :: later)
    (emits : operation.emits?.isSome = true) (otherEmits : other.emits?.isSome = true)
    (position : emissions before = emissions earlier) : operation = other := by
  rcases List.append_eq_append_iff.mp same with ⟨middle, rfl, rest⟩ | ⟨middle, rfl, rest⟩
  · cases middle with
    | nil => exact (List.cons.inj rest).1
    | cons first middle =>
      obtain ⟨rfl, -⟩ := List.cons.inj rest
      exact absurd position (Nat.ne_of_lt (emissions_lt before emits middle))
  · cases middle with
    | nil => exact (List.cons.inj rest).1.symm
    | cons first middle =>
      obtain ⟨rfl, -⟩ := List.cons.inj rest
      exact absurd position.symm (Nat.ne_of_lt (emissions_lt earlier otherEmits middle))

/-- A label that is patched has been given out with a jump, whose address it holds. -/
theorem PatchesOwn.issued
    (own : emitter.PatchesOwn labels (before ++ .patch label :: after)) :
    label ∈ labels ∨ ∃ earlier opcode later, before = earlier ++ .emitJump opcode :: later ∧
      label.address = (emitter.perform earlier).offset := by
  induction before generalizing emitter labels with
  | nil => exact .inl own.1
  | cons operation rest inductionHypothesis =>
    rcases inductionHypothesis own.2 with known | ⟨earlier, opcode, later, rfl, position⟩
    · rcases List.mem_append.mp known with issued | known
      · cases operation with
        | emitJump opcode =>
          obtain rfl := List.mem_singleton.mp issued
          exact .inr ⟨[], opcode, rest, rfl, rfl⟩
        | _ => cases issued
      · exact .inl known
    · exact .inr ⟨operation :: earlier, opcode, later, rfl, position⟩

theorem PatchesOwn.origin (own : PatchesOwn {} [] (before ++ .patch label :: after)) :
    ∃ earlier opcode later, before = earlier ++ .emitJump opcode :: later ∧
      label.address = emissions earlier := by
  rcases own.issued with known | ⟨earlier, opcode, later, split, position⟩
  · cases known
  · exact ⟨earlier, opcode, later, split, position.trans (offset_new earlier)⟩

/-! ### What stands in the code -/

theorem present_of_emits (emits : operation.emits? = some (opcode, operand))
    (before : List Operation) :
    (perform {} (before ++ [operation])).code[emissions before]? =
      some ⟨opcode, operand, lastTag before⟩ := by
  rw [perform_append]
  show (operation.apply (perform {} before)).code[emissions before]? = _
  rw [apply_of_emits emits, getElem?_emitWith, if_pos (offset_new before).symm, tag_new]

/-- What is emitted stands at its address from then on. -/
theorem exists_emittedBy (own : PatchesOwn {} [] (before ++ operation :: after))
    (emits : operation.emits?.isSome = true) :
    ∃ instruction,
      (perform {} (before ++ operation :: after)).code[emissions before]? = some instruction ∧
        EmittedBy before operation after instruction := by
  obtain ⟨⟨opcode, operand⟩, content⟩ := Option.isSome_iff_exists.mp emits
  have present := present_of_emits content before
  have whole : perform {} (before ++ operation :: after) =
      (perform {} (before ++ [operation])).perform after := by
    rw [← perform_append, List.append_assoc]
    rfl
  by_cases patched : .patch ⟨emissions before⟩ ∈ after
  · -- Only a jump gives out the label that is patched there.
    obtain ⟨between, rest, rfl⟩ := List.append_of_mem patched
    have owned : PatchesOwn {} []
        ((before ++ operation :: between) ++ .patch ⟨emissions before⟩ :: rest) := by
      simpa using own
    obtain ⟨earlier, _, later, split, position⟩ := owned.origin
    obtain rfl := emission_unique split emits rfl position
    cases content
    obtain ⟨now, kept⟩ := exists_operand_perform present _
    exact ⟨_, whole ▸ kept, rfl, _, rfl, fun _ => ⟨rfl, patched⟩⟩
  · have inside := (Array.getElem?_eq_some_iff.mp present).1
    refine ⟨_, whole ▸ (getElem?_perform inside patched).trans present, rfl, operand, content, ?_⟩
    exact fun changed => absurd rfl changed

/-- The last patch of a label decides on the operand of its jump. -/
theorem getElem?_patched (before between : List Operation) (opcode : Opcode)
    (untouched : .patch ⟨emissions before⟩ ∉ after) :
    (perform {} (before ++ .emitJump opcode ::
        (between ++ .patch ⟨emissions before⟩ :: after))).code[emissions before]? =
      some ⟨opcode, .int (Int64.ofNat
        (emissions (before ++ .emitJump opcode :: between) - (emissions before + 1))),
        lastTag before⟩ := by
  have jump : (Operation.emitJump opcode).emits? = some (opcode, .int 0) := rfl
  obtain ⟨now, present⟩ := exists_operand_perform (present_of_emits jump before) between
  rw [← perform_append, List.append_assoc, List.singleton_append] at present
  rw [← List.cons_append, ← List.append_assoc, perform_append, perform_cons]
  generalize before ++ .emitJump opcode :: between = earlier at present
  have inside : emissions before < (perform {} earlier).offset :=
    (Array.getElem?_eq_some_iff.mp present).1
  have stillInside : emissions before <
      ((perform {} earlier).patch ⟨emissions before⟩).offset := by
    rwa [offset_patch]
  refine (getElem?_perform stillInside untouched).trans ?_
  rw [getElem?_patch, if_pos rfl, present, distance, offset_new]
  rfl

end Emitter

/-! ### Where patched jumps land -/

namespace Machine

/-- A jump with the opcode would be taken: it is unconditional, or the condition on top is false. -/
def State.TakesJump (state : State) (opcode : Opcode) : Prop :=
  opcode = .jump ∨ opcode = .jumpIfFalse ∧ ∃ condition rest,
    state.stack.values = condition :: rest ∧ condition.asCondition = .ok false

theorem Action.step_of_taken {program : CompiledProgram} {settings : Settings} {state : State}
    {opcode : Opcode} {tag : String} {count : Nat} (addressable : program.Addressable)
    (found : program.code[state.pc]? = some ⟨opcode, .int (Int64.ofNat count), tag⟩)
    (taken : state.TakesJump opcode) (inside : state.pc + 1 + count < program.code.size) :
    ∃ next, step program settings state = .ok () next ∧ next.pc = state.pc + 1 + count := by
  rw [step_of_fetch found]
  rcases taken with rfl | ⟨rfl, condition, rest, held, isFalse⟩
  · exact ⟨_, jump_eq_ok addressable inside, rfl⟩
  · rw [← stack_fetched settings ⟨.jumpIfFalse, .int (Int64.ofNat count), tag⟩] at held
    simp only [perform, bind_of_ok (pop_of_cons held), isFalse, lift_ok_bind]
    exact ⟨_, jump_eq_ok addressable inside, rfl⟩

end Machine

/-- Wherever the code is placed in a program, a jump at an address of it that is taken lands on
another address of it. -/
def Bytecode.Lands (code : Bytecode) (opcode : Opcode) (address target : Nat) : Prop :=
  ∀ (program : CompiledProgram) (base : Nat) (settings : Settings) (state : Machine.State),
    program.Addressable → program.code.Holds base code.toList → state.pc = base + address →
      state.TakesJump opcode →
        ∃ next, Machine.Action.step program settings state = .ok () next ∧
          next.pc = base + target

theorem Bytecode.lands_of_distance {code : Bytecode} {opcode : Opcode} {tag : String}
    {address target : Nat} (behind : address < target) (inside : target < code.size)
    (found : code[address]? = some ⟨opcode, .int (Int64.ofNat (target - (address + 1))), tag⟩) :
    code.Lands opcode address target := by
  intro program base settings state addressable holds atJump taken
  have nonempty : code.toList ≠ [] := by
    rintro empty
    rw [← Array.length_toList, empty] at inside
    cases inside
  have bound := holds.length_le nonempty
  rw [Array.length_toList] at bound
  have fetched := holds address _ (Array.getElem?_toList.trans found)
  rw [← atJump] at fetched
  obtain ⟨next, stepped, arrives⟩ :=
    Machine.Action.step_of_taken addressable fetched taken (by omega)
  exact ⟨next, stepped, by omega⟩

namespace Emitter

/-- The label of a jump that was emitted after some operations has been patched, after some others
and for the last time. The distance from behind the jump to the end of the code at that time is its
operand, and so it lands on what is emitted first after the patch. -/
structure LeadsOn (code : Bytecode) (before : List Operation) (opcode : Opcode)
    (between : List Operation) (label : JumpLabel) (after : List Operation) : Prop where
  stands : ∃ distance : Int64, code[label.address]? = some ⟨opcode, .int distance, lastTag before⟩ ∧
    (code.Addressable → distance.toInt =
      (emissions (before ++ .emitJump opcode :: between) : Int) - (label.address + 1))
  lands : ∀ silent next rest, after = silent ++ next :: rest → emissions silent = 0 →
    next.emits?.isSome = true → code.Lands opcode label.address
      (emissions (before ++ .emitJump opcode :: (between ++ .patch label :: silent)))

theorem leadsOn_of_untouched (before between : List Operation) (opcode : Opcode)
    {after : List Operation} (untouched : .patch ⟨emissions before⟩ ∉ after) :
    LeadsOn (perform {} (before ++ .emitJump opcode ::
      (between ++ .patch ⟨emissions before⟩ :: after))).code before opcode between
        ⟨emissions before⟩ after := by
  have patched := getElem?_patched before between opcode untouched
  have behind : emissions before < emissions (before ++ .emitJump opcode :: between) :=
    emissions_lt before rfl between
  have regrouped (rest : List Operation) :
      emissions (before ++ .emitJump opcode :: (between ++ .patch ⟨emissions before⟩ :: rest)) =
        emissions (before ++ .emitJump opcode :: between) + emissions rest := by
    rw [← List.cons_append, ← List.append_assoc, emissions_append,
      emissions_cons_of_not_emits rfl]
  have size := offset_new (before ++ .emitJump opcode ::
    (between ++ .patch ⟨emissions before⟩ :: after))
  rw [regrouped, offset] at size
  generalize (perform {} (before ++ .emitJump opcode ::
    (between ++ .patch ⟨emissions before⟩ :: after))).code = code at patched size ⊢
  refine ⟨⟨_, patched, ?_⟩, ?_⟩
  · intro addressable
    rw [Bytecode.toInt_distance addressable (by omega)]
    dsimp only
    omega
  · rintro silent next rest rfl quiet emits
    have inside := emissions_lt silent emits rest
    rw [regrouped, quiet, Nat.add_zero]
    exact Bytecode.lands_of_distance behind (by omega) patched

/-- Whatever an emitter is asked to do, as long as the labels that are patched are its own: the jump
of a label that is patched stands in the code by then, so its distance is not negative; the code is
as long as there were emissions; each emission stands at its address as it was emitted, all of the
code comes from emissions, and only jumps that were patched have got another operand; and a jump
leads, from the last patch of its label on, to what was emitted next. -/
theorem patching_is_disciplined {operations : List Operation}
    (own : PatchesOwn {} [] operations) :
    (∀ before label after, operations = before ++ .patch label :: after →
      label.address + 1 ≤ (perform {} before).offset) ∧
    (perform {} operations).offset = emissions operations ∧
    (∀ before operation after, operations = before ++ operation :: after →
      operation.emits?.isSome = true → ∃ instruction,
        (perform {} operations).code[emissions before]? = some instruction ∧
          EmittedBy before operation after instruction) ∧
    (∀ address instruction, (perform {} operations).code[address]? = some instruction →
      ∃ before operation after, operations = before ++ operation :: after ∧
        emissions before = address ∧ EmittedBy before operation after instruction) ∧
    ∀ before opcode between label after,
      operations = before ++ .emitJump opcode :: (between ++ .patch label :: after) →
      label = (perform {} before).nextLabel → .patch label ∉ after →
        LeadsOn (perform {} operations).code before opcode between label after := by
  refine ⟨?_, offset_new operations, ?_, ?_, ?_⟩
  · rintro before label after rfl
    obtain ⟨earlier, opcode, later, rfl, position⟩ := own.origin
    rw [position, offset_new]
    exact emissions_lt earlier rfl later
  · rintro before operation after rfl emits
    exact exists_emittedBy own emits
  · intro address instruction found
    have inside : address < (perform {} operations).offset :=
      (Array.getElem?_eq_some_iff.mp found).1
    rw [offset_new] at inside
    obtain ⟨before, operation, after, rfl, emits, rfl⟩ := exists_emission inside
    obtain ⟨same, present, emitted⟩ := exists_emittedBy own emits
    cases found.symm.trans present
    exact ⟨before, operation, after, rfl, rfl, emitted⟩
  · rintro before opcode between ⟨address⟩ after rfl labelled untouched
    obtain rfl : address = emissions before :=
      (congrArg JumpLabel.address labelled).trans (offset_new before)
    exact leadsOn_of_untouched before between opcode untouched

/-- Two jumps that are patched across each other, the first of them twice. -/
def crossing : List Operation :=
  [.setTag "f:if", .emitConstant (.bool true), .emitJump .jumpIfFalse, .emitNamed .callFunc "act",
    .emitJump .jump, .patch ⟨1⟩, .setTag "f:return", .emit .returnVoid, .patch ⟨3⟩, .patch ⟨1⟩,
    .setTag "f:expr", .emitConstant (.int 7), .emit .pop]

/-- The first jump passes over all that was emitted before its second patch, and a machine that
takes it goes on with the constant. -/
theorem crossing_is_disciplined :
    PatchesOwn {} [] crossing ∧ (perform {} crossing).offset = 7 ∧
      (∃ distance : Int64, (perform {} crossing).code[1]? =
        some ⟨.jumpIfFalse, .int distance, "f:if"⟩ ∧ distance.toInt = 3) ∧
      ∃ state, Machine.Action.step ⟨(perform {} crossing).code, {}, 0⟩ {}
        { pc := 1, stack := ⟨1, [.bool false], 1, rfl⟩ } = .ok () state ∧ state.pc = 5 := by
  have own : PatchesOwn {} [] crossing := by decide
  obtain ⟨-, size, -, -, patched⟩ := patching_is_disciplined own
  obtain ⟨⟨distance, found, counted⟩, lands⟩ := patched (crossing.take 2) .jumpIfFalse
    ((crossing.drop 3).take 6) ⟨1⟩ (crossing.drop 10) rfl rfl (by simp [crossing])
  have alone : Bytecode.Holds (perform {} crossing).code 0 (perform {} crossing).code.toList :=
    @Bytecode.Holds.of_toList _ [] _ [] (List.append_nil _).symm
  refine ⟨own, size, ⟨distance, found, counted (by decide)⟩, ?_⟩
  exact lands [.setTag "f:expr"] (.emitConstant (.int 7)) [.emit .pop] rfl rfl rfl _ 0 _ _
    (by decide) alone rfl (.inr ⟨rfl, _, _, rfl, rfl⟩)

end Emitter

end StackLang
