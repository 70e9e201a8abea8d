import StackLang.Proofs.StructResolution

/-!
# What a prototype is

Prototypes are filled in on demand and kept, so which of them is filled in as part of which other
depends on the order of the declarations. `Fills` says what filling in comes to when nothing is
kept. It has one result at most (`Fills.unique`), the prototypes that are kept are all results of it
(`Faithful`), and so the struct types of a program are determined by the last declaration of each
name (`ofProgram_unique`).
-/

namespace StackLang.StructTypes

/-- Filling in fields, each with the default of its type, leads from one record to another. -/
inductive Fills (declared : Bindings StructDecl) : List TypedName → Record → Record → Prop where
  | done (record : Record) : Fills declared [] record record
  | kind {field : TypedName} {rest : List TypedName} {record result : Record} {kind : Kind}
      (isKind : Kind.ofName? field.type = some kind)
      (later : Fills declared rest (record.insert field.name (.zero kind)) result) :
      Fills declared (field :: rest) record result
  | struct {field : TypedName} {rest : List TypedName} {record nested result : Record}
      {declaration : StructDecl} (notKind : Kind.ofName? field.type = none)
      (found : declared.find? field.type = some declaration)
      (inner : Fills declared declaration.fields {} nested)
      (later : Fills declared rest (record.insert field.name (.struct nested)) result) :
      Fills declared (field :: rest) record result

/-- The struct that a declared name stands for, with every field filled in. -/
def IsPrototype (declared : Bindings StructDecl) (name : String) (record : Record) : Prop :=
  ∃ declaration, declared.find? name = some declaration ∧
    Fills declared declaration.fields {} record

variable {declared : Bindings StructDecl} {fields : List TypedName} {record : Record}
  {idle : List String} {name : String}

theorem Fills.unique {one two : Record} (first : Fills declared fields record one)
    (second : Fills declared fields record two) : one = two := by
  induction first generalizing two with
  | done =>
    cases second
    rfl
  | kind isKind _ inductionHypothesis =>
    cases second with
    | kind isKindHere later =>
      cases isKind.symm.trans isKindHere
      exact inductionHypothesis later
    | struct notKind _ _ _ => cases isKind.symm.trans notKind
  | struct notKind found _ _ nestedHypothesis restHypothesis =>
    cases second with
    | kind isKind _ => cases notKind.symm.trans isKind
    | struct _ foundHere inner later =>
      cases found.symm.trans foundHere
      cases nestedHypothesis inner
      exact restHypothesis later

theorem IsPrototype.unique {one two : Record} (first : IsPrototype declared name one)
    (second : IsPrototype declared name two) : one = two := by
  obtain ⟨declaration, found, fills⟩ := first
  obtain ⟨_, foundHere, fillsHere⟩ := second
  cases found.symm.trans foundHere
  exact fills.unique fillsHere

/-- The prototypes that are kept are what they would be if none were. -/
structure Faithful (declared : Bindings StructDecl) (built : Bindings Record) : Prop where
  prototype : ∀ name record, built.find? name = some record → IsPrototype declared name record

variable {built before after : Bindings Record}

theorem Faithful.empty (declared : Bindings StructDecl) : Faithful declared {} :=
  ⟨fun _ _ absent => nomatch absent⟩

theorem Faithful.insert (faithful : Faithful declared built)
    (prototype : IsPrototype declared name record) :
    Faithful declared (built.insert name record) where
  prototype := by
    intro other found known
    rw [Bindings.find?_insert] at known
    split at known
    · next same =>
      cases known
      exact same ▸ prototype
    · exact faithful.prototype other found known

theorem fillIn_kind {field : TypedName} {rest : List TypedName} {kind : Kind}
    (isKind : Kind.ofName? field.type = some kind) :
    fillIn declared idle (field :: rest) built record =
      fillIn declared idle rest built (record.insert field.name (.zero kind)) := by
  rw [fillIn, isKind]

/-- A prototype that is ready is not filled in again. -/
theorem fillIn_kept {field : TypedName} {rest : List TypedName} {nested : Record}
    (notKind : Kind.ofName? field.type = none) (kept : built.find? field.type = some nested) :
    fillIn declared idle (field :: rest) built record =
      fillIn declared idle rest built (record.insert field.name (.struct nested)) := by
  rw [fillIn, notKind, kept]

/-- Whatever has been kept before, fields are filled in as they would be without it. -/
theorem fillIn_fills {result : Record × Bindings Record} (faithful : Faithful declared built)
    (filled : fillIn declared idle fields built record = .ok result) :
    Fills declared fields record result.1 ∧ Faithful declared result.2 := by
  fun_induction fillIn declared idle fields built record generalizing result with
  | case1 idle built record =>
    cases filled
    exact ⟨.done record, faithful⟩
  | case2 idle built record field rest kind isKind inductionHypothesis =>
    obtain ⟨later, faithfulAfter⟩ := inductionHypothesis faithful filled
    exact ⟨.kind isKind later, faithfulAfter⟩
  | case3 idle built record field rest notKind nested kept inductionHypothesis =>
    obtain ⟨declaration, found, inner⟩ := faithful.prototype field.type nested kept
    obtain ⟨later, faithfulAfter⟩ := inductionHypothesis faithful filled
    exact ⟨.struct notKind found inner later, faithfulAfter⟩
  | case4 => cases filled
  | case5 idle built record field rest notKind fresh declaration found isIdle nested added
      nestedFilled nestedHypothesis restHypothesis =>
    obtain ⟨inner, faithfulInner⟩ := nestedHypothesis faithful nestedFilled
    have inserted := faithfulInner.insert ⟨declaration, found, inner⟩
    obtain ⟨later, faithfulAfter⟩ := restHypothesis inserted filled
    exact ⟨.struct notKind found inner later, faithfulAfter⟩
  | case6 => cases filled
  | case7 => cases filled

theorem build_faithful {declaration : StructDecl}
    (found : declared.find? declaration.name = some declaration)
    (faithful : Faithful declared before)
    (succeeded : build declared declaration before = .ok after) : Faithful declared after := by
  unfold build at succeeded
  split at succeeded
  · cases succeeded
    exact faithful
  · split at succeeded
    · next record inner filled =>
      cases succeeded
      obtain ⟨fills, faithfulInner⟩ := fillIn_fills faithful filled
      exact faithfulInner.insert ⟨declaration, found, fills⟩
    · cases succeeded

theorem buildAll_faithful {declarations : List StructDecl}
    (found : ∀ declaration ∈ declarations, declared.find? declaration.name = some declaration)
    (faithful : Faithful declared before)
    (succeeded : buildAll declared declarations before = .ok after) : Faithful declared after := by
  induction declarations generalizing before with
  | nil =>
    cases succeeded
    exact faithful
  | cons declaration others inductionHypothesis =>
    unfold buildAll at succeeded
    split at succeeded
    · next middle first =>
      obtain ⟨headFound, othersFound⟩ := List.forall_mem_cons.mp found
      exact inductionHypothesis othersFound (build_faithful headFound faithful first) succeeded
    · cases succeeded

variable {program other : Program} {types otherTypes : StructTypes}

theorem ofProgram_faithful (succeeded : ofProgram program = .ok types) :
    Faithful program.structs types.prototypes := by
  simp only [ofProgram] at succeeded
  split at succeeded
  · next built all =>
    cases succeeded
    exact buildAll_faithful (found_latest program) (.empty _) all
  · cases succeeded

/-- The prototypes of a program are those of its declared structs. -/
theorem find?_prototypes_iff (succeeded : ofProgram program = .ok types) :
    types.prototypes.find? name = some record ↔ IsPrototype program.structs name record := by
  have faithful := ofProgram_faithful succeeded
  constructor
  · exact faithful.prototype name record
  · intro prototype
    have ⟨declaration, found, _⟩ := prototype
    obtain ⟨member, rfl⟩ := mem_latest found
    have present := (prototypes_of_ofProgram succeeded).1 declaration member
    obtain ⟨kept, known⟩ := Option.isSome_iff_exists.mp present
    rw [known, prototype.unique (faithful.prototype _ kept known)]

/-- Programs whose names have the same last declarations have the same struct types. -/
theorem ofProgram_unique (same : program.structs = other.structs)
    (succeeded : ofProgram program = .ok types)
    (otherSucceeded : ofProgram other = .ok otherTypes) : types = otherTypes := by
  obtain ⟨prototypes⟩ := types
  obtain ⟨otherPrototypes⟩ := otherTypes
  refine congrArg StructTypes.mk (Bindings.ext fun name => Option.ext fun record => ?_)
  rw [find?_prototypes_iff succeeded, find?_prototypes_iff otherSucceeded, same]

end StackLang.StructTypes
