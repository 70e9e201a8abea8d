import StackLang.Layout
import StackLang.Proofs.Emission

/-!
# Where the code of a program stands

`Bytecode.Holds` says that a piece of code stands at an address. `Program.Placed` collects what a
compiled program is: a name leads to its last declaration, at the address of each function in the
table stands the code of its body, and at the initial address stands that of the global statements.
`Program.placed_of_compile` shows it of every program that is compiled.
-/

namespace StackLang

/-- The given instructions stand at an address. -/
def Bytecode.Holds (code : Bytecode) (address : Nat) (fragment : List Instruction) : Prop :=
  ∀ index instruction, fragment[index]? = some instruction →
    code[address + index]? = some instruction

namespace Bytecode.Holds

variable {code : Bytecode} {address : Nat} {first second : List Instruction}

theorem left (holds : code.Holds address (first ++ second)) : code.Holds address first := by
  intro index instruction found
  apply holds
  rw [List.getElem?_append_left (List.getElem?_eq_some_iff.mp found).1]
  exact found

theorem right (holds : code.Holds address (first ++ second)) :
    code.Holds (address + first.length) second := by
  intro index instruction found
  rw [Nat.add_assoc]
  apply holds
  rw [List.getElem?_append_right (Nat.le_add_right _ _), Nat.add_sub_cancel_left]
  exact found

theorem head {instruction : Instruction} (holds : code.Holds address (instruction :: second)) :
    code[address]? = some instruction :=
  holds 0 instruction rfl

theorem tail {instruction : Instruction} (holds : code.Holds address (instruction :: second)) :
    code.Holds (address + 1) second :=
  @right code address [instruction] second holds

theorem append (holds : code.Holds address first) (more : Bytecode) :
    Bytecode.Holds (code ++ more) address first := by
  intro index instruction found
  have inside := holds index instruction found
  rw [Array.getElem?_append_left (Array.getElem?_eq_some_iff.mp inside).1]
  exact inside

theorem behind (code more : Bytecode) : Bytecode.Holds (code ++ more) code.size more.toList := by
  intro index instruction found
  rw [Array.getElem?_append_right (Nat.le_add_right _ _), Nat.add_sub_cancel_left]
  simpa using found

/-- What stands in the code does not reach beyond its end. -/
theorem length_le (holds : code.Holds address first) (nonempty : first ≠ []) :
    address + first.length ≤ code.size := by
  have positive : 0 < first.length := List.length_pos_iff.mpr nonempty
  have last : first.length - 1 < first.length := by omega
  have inside := holds (first.length - 1) first[first.length - 1] (List.getElem?_eq_getElem last)
  have bound := (Array.getElem?_eq_some_iff.mp inside).1
  omega

end Bytecode.Holds

/-- The addresses from one up to another. -/
structure Stretch where
  first : Nat
  stop : Nat

/-- All addresses of the code. -/
def Bytecode.whole (code : Bytecode) : Stretch :=
  ⟨0, code.size⟩

/-- An instruction stands at an address of a stretch. -/
structure Bytecode.FetchesWithin (code : Bytecode) (stretch : Stretch) (address : Nat)
    (instruction : Instruction) : Prop where
  fetched : code[address]? = some instruction
  above : stretch.first ≤ address
  below : address < stretch.stop

/-- The given instructions stand at an address, and in a stretch. -/
structure Bytecode.HoldsWithin (code : Bytecode) (stretch : Stretch) (address : Nat)
    (fragment : List Instruction) : Prop where
  holds : code.Holds address fragment
  above : stretch.first ≤ address
  below : address + fragment.length ≤ stretch.stop

theorem Bytecode.FetchesWithin.ofWhole {code : Bytecode} {address : Nat} {instruction : Instruction}
    (fetched : code[address]? = some instruction) :
    code.FetchesWithin code.whole address instruction :=
  ⟨fetched, Nat.zero_le _, (Array.getElem?_eq_some_iff.mp fetched).1⟩

namespace Bytecode.HoldsWithin

variable {code : Bytecode} {stretch : Stretch} {address : Nat} {first second : List Instruction}

theorem ofWhole (holds : code.Holds address first) (nonempty : first ≠ []) :
    code.HoldsWithin code.whole address first :=
  ⟨holds, Nat.zero_le _, holds.length_le nonempty⟩

theorem left (holds : code.HoldsWithin stretch address (first ++ second)) :
    code.HoldsWithin stretch address first where
  holds := holds.holds.left
  above := holds.above
  below := by
    have below := holds.below
    rw [List.length_append] at below
    omega

theorem right (holds : code.HoldsWithin stretch address (first ++ second)) :
    code.HoldsWithin stretch (address + first.length) second where
  holds := holds.holds.right
  above := Nat.le_trans holds.above (Nat.le_add_right _ _)
  below := by
    have below := holds.below
    rwa [List.length_append, ← Nat.add_assoc] at below

theorem head {instruction : Instruction}
    (holds : code.HoldsWithin stretch address (instruction :: second)) :
    code.FetchesWithin stretch address instruction where
  fetched := holds.holds.head
  above := holds.above
  below := Nat.lt_of_lt_of_le (Nat.lt_add_of_pos_right (Nat.succ_pos _)) holds.below

theorem tail {instruction : Instruction}
    (holds : code.HoldsWithin stretch address (instruction :: second)) :
    code.HoldsWithin stretch (address + 1) second :=
  @right code stretch address [instruction] second holds

end Bytecode.HoldsWithin

theorem Bindings.ofList_concat {α : Type} (entries : List (String × α)) (name : String)
    (content : α) :
    Bindings.ofList (entries ++ [(name, content)]) =
      (Bindings.ofList entries).insert name content := by
  simp [Bindings.ofList]

/-- The code is short enough for its addresses to be integers of the machine, as those of any code
that is held in memory are. A jump over a part of the code then has the distance that was meant. -/
def CompiledProgram.Addressable (compiled : CompiledProgram) : Prop :=
  compiled.code.size ≤ Int64.maxValue.toInt

instance (compiled : CompiledProgram) : Decidable compiled.Addressable :=
  inferInstanceAs (Decidable (compiled.code.size ≤ Int64.maxValue.toInt))

namespace Layout

/-- What is known of a layout in which the given functions have been placed. -/
structure Sound (declared : Bindings FunctionDecl) (types : StructTypes)
    (placed : List FunctionDecl) (layout : Layout) : Prop where
  declarations : ∀ name, (layout.functions.find? name).map FunctionEntry.declaration =
    (Bindings.ofList (placed.map fun function => (function.name, function))).find? name
  accepted : ∀ name entry, layout.functions.find? name = some entry →
    entry.declaration.Accepted declared types
  bodies : ∀ name entry, layout.functions.find? name = some entry →
    layout.code.Holds entry.address
      ((BodyContext.forFunction declared types entry.declaration).bodyCode entry.declaration.body)

variable {declared : Bindings FunctionDecl} {types : StructTypes}

theorem Sound.empty : Sound declared types [] {} where
  declarations := fun _ => rfl
  accepted := fun _ _ found => nomatch found
  bodies := fun _ _ found => nomatch found

theorem Sound.place {placed : List FunctionDecl} {layout : Layout} {function : FunctionDecl}
    {body : Bytecode} (sound : Sound declared types placed layout)
    (accepted : function.Accepted declared types)
    (compiled : body.toList =
      (BodyContext.forFunction declared types function).bodyCode function.body) :
    Sound declared types (placed ++ [function]) (layout.place function body) where
  declarations := by
    intro name
    rw [List.map_append, List.map_singleton, Bindings.ofList_concat]
    simp only [Layout.place, FunctionTable.define, Bindings.find?_insert]
    split
    · rfl
    · exact sound.declarations name
  accepted := by
    intro name entry found
    simp only [Layout.place, FunctionTable.define, Bindings.find?_insert] at found
    split at found
    · cases found
      exact accepted
    · exact sound.accepted name entry found
  bodies := by
    intro name entry found
    simp only [Layout.place, FunctionTable.define, Bindings.find?_insert] at found
    split at found
    · cases found
      rw [← compiled]
      exact .behind layout.code body
    · exact (sound.bodies name entry found).append body

theorem Sound.placeAll {functions placed : List FunctionDecl} {layout final : Layout}
    (sound : Sound declared types placed layout)
    (succeeded : placeAll declared types functions layout = (final, .ok ())) :
    Sound declared types (placed ++ functions) final := by
  induction functions generalizing placed layout with
  | nil =>
    cases succeeded
    simpa using sound
  | cons function rest inductionHypothesis =>
    simp only [Layout.placeAll] at succeeded
    split at succeeded
    · next body compiled =>
      obtain ⟨accepted, bodyCode⟩ := FunctionDecl.compile_ok compiled
      have later := inductionHypothesis (sound.place accepted bodyCode) succeeded
      simpa using later
    · cases succeeded

end Layout

/-- What a program has been compiled to. -/
structure Program.Placed (program : Program) (types : StructTypes) (compiled : CompiledProgram) :
    Prop where
  resolved : StructTypes.ofProgram program = .ok types
  functions : Layout.Sound program.functions types program.functionDecls
    ⟨compiled.code, compiled.functions, #[]⟩
  initialLegal : ∀ statement ∈ program.globalStatements,
    statement.Legal (BodyContext.forGlobals program.functions types)
  initialiser : compiled.code.Holds compiled.initAddress
    ((BodyContext.forGlobals program.functions types).bodyCode program.globalStatements)

theorem Program.placed_of_compile {program : Program} {compiled : CompiledProgram}
    (accepted : program.compile = .ok compiled) : ∃ types, program.Placed types compiled := by
  unfold Program.compile Program.compilation at accepted
  split at accepted
  · cases accepted
  · next types resolved =>
    dsimp only at accepted
    split at accepted
    · cases accepted
    · next layout placed =>
      split at accepted
      · cases accepted
      · next body compiledBody =>
        cases accepted
        obtain ⟨legal, bodyCode⟩ := BodyContext.compileBody_ok compiledBody
        have sound : Layout.Sound program.functions types program.functionDecls layout :=
          Layout.Sound.empty.placeAll placed
        refine ⟨types, resolved, ?_, legal, ?_⟩
        · exact ⟨sound.declarations, sound.accepted,
            fun name entry found => (sound.bodies name entry found).append body⟩
        · rw [← bodyCode]
          exact .behind layout.code body

end StackLang
