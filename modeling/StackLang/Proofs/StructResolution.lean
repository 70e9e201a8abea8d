import Mathlib.Data.List.Induction
import Mathlib.Logic.Relation
import StackLang.Proofs.Placement

/-!
# Which struct types have a prototype

A prototype is filled in field by field, and the structs in it on the way. `Program.Grounded` says
of a struct that its fields come down to kinds of values. Filling in leads to grounded structs only
(`StructTypes.fillIn_ok`), and where it fails there is a field of an unknown type or a struct that
contains itself, and the error names it (`StructTypes.fillIn_flaw`). So the struct types of a
program exist exactly if every field has a known type and containment is acyclic
(`StructTypes.ofProgram_ok_iff`); the types with a default are then the ones that the program knows
(`StructTypes.defaultValue_ok_iff`).
-/

namespace StackLang

open Relation

namespace Bindings

variable {α : Type}

/-- Of the declarations with one name, the last one is found. -/
theorem find?_ofList_map (nameOf : α → String) (declarations : List α) (name : String) :
    (ofList (declarations.map fun declaration => (nameOf declaration, declaration))).find? name =
      declarations.reverse.find? fun declaration => nameOf declaration == name := by
  induction declarations using List.reverseRecOn with
  | nil => rfl
  | append_singleton front last inductionHypothesis =>
    rw [List.map_append, List.map_singleton, ofList_concat, find?_insert, inductionHypothesis,
      List.reverse_append, List.reverse_singleton, List.singleton_append, List.find?_cons]
    by_cases same : nameOf last = name
    · simp [same]
    · rw [if_neg (Ne.symm same), beq_false_of_ne same]

theorem contains_insert (bindings : Bindings α) (name other : String) (content : α) :
    (bindings.insert name content).contains other = true ↔
      other = name ∨ bindings.contains other = true := by
  unfold contains
  rw [find?_insert]
  by_cases same : other = name <;> simp [same]

end Bindings

namespace Program

variable {program : Program} {name : String}

theorem struct?_eq_find? (program : Program) (name : String) :
    program.struct? name =
      program.structDecls.reverse.find? fun declaration => declaration.name == name :=
  Bindings.find?_ofList_map StructDecl.name program.structDecls name

/-- A name for a kind of values or for a struct of the program. -/
def Resolves (program : Program) (type : String) : Prop :=
  (Kind.ofName? type).isSome ∨ (program.struct? type).isSome

/-- A struct has a field that is a struct of another name, or of its own. -/
def Contains (program : Program) (outer inner : String) : Prop :=
  Kind.ofName? inner = none ∧
    ∃ declaration, program.struct? outer = some declaration ∧
      ∃ field ∈ declaration.fields, field.type = inner

/-- Every field has a known type, and no struct contains itself, directly or through others. -/
structure StructsResolve (program : Program) : Prop where
  known : ∀ name declaration, program.struct? name = some declaration →
    ∀ field ∈ declaration.fields, program.Resolves field.type
  acyclic : ∀ name, ¬ TransGen program.Contains name name

/-- What is wrong with the structs of a program when an error is reported for them: a field has a
type that is not known, or a struct contains itself. -/
inductive Flaw (program : Program) : CompileError → Prop where
  | unknown {holder name : String} (contains : program.Contains holder name)
      (undeclared : program.struct? name = none) : Flaw program (.unknownType name)
  | recursive {name : String} (cycle : TransGen program.Contains name name) :
      Flaw program (.recursiveStruct name)

theorem StructsResolve.not_flaw {cause : CompileError} (resolve : program.StructsResolve) :
    ¬ program.Flaw cause := by
  rintro (⟨⟨notKind, declaration, found, field, member, rfl⟩, undeclared⟩ | cycle)
  · rcases resolve.known _ _ found field member with isKind | declared
    · simp [notKind] at isKind
    · simp [undeclared] at declared
  · exact resolve.acyclic _ cycle

/-- A declared struct whose fields are of kinds of values or grounded structs again. -/
inductive Grounded (program : Program) : String → Prop where
  | intro {name : String} {declaration : StructDecl}
      (declared : program.struct? name = some declaration)
      (fields : ∀ field ∈ declaration.fields, Kind.ofName? field.type = none →
        Grounded program field.type) : Grounded program name

theorem Grounded.declared (grounded : program.Grounded name) : (program.struct? name).isSome := by
  obtain ⟨declared, _⟩ := grounded
  simp [declared]

theorem Grounded.known (grounded : program.Grounded name) {declaration : StructDecl}
    (found : program.struct? name = some declaration) :
    ∀ field ∈ declaration.fields, program.Resolves field.type := by
  obtain ⟨declared, fields⟩ := grounded
  cases declared.symm.trans found
  intro field member
  cases kind : Kind.ofName? field.type with
  | some _ => exact .inl (by simp [kind])
  | none => exact .inr (fields field member kind).declared

theorem Grounded.not_contains_self (grounded : program.Grounded name) :
    ¬ TransGen program.Contains name name := by
  induction grounded with
  | @intro name declaration declared fields inductionHypothesis =>
    intro cycle
    obtain ⟨inner, contains, back⟩ := TransGen.head'_iff.mp cycle
    have ⟨notKind, holder, found, field, member, named⟩ := contains
    cases declared.symm.trans found
    cases named
    -- The cycle passes through the field, so it can be entered there as well.
    exact inductionHypothesis field member notKind (.tail' back contains)

end Program

namespace StructTypes

open Program (Grounded Contains StructsResolve)

variable {program : Program} {idle : List String} {fields rest : List TypedName}
  {before after built : Bindings Record} {record : Record}

/-- Prototypes have been added to those that were ready, and all are of grounded structs. -/
structure Extended (program : Program) (before after : Bindings Record) : Prop where
  ready : ∀ name, after.contains name = true → program.Grounded name
  kept : ∀ name, before.contains name = true → after.contains name = true

theorem Extended.refl (ready : ∀ name, built.contains name = true → program.Grounded name) :
    Extended program built built :=
  ⟨ready, fun _ bound => bound⟩

theorem Extended.trans {middle : Bindings Record} (first : Extended program before middle)
    (second : Extended program middle after) : Extended program before after :=
  ⟨second.ready, fun name bound => second.kept name (first.kept name bound)⟩

theorem Extended.insert {name : String} (extended : Extended program before after)
    (grounded : program.Grounded name) (record : Record) :
    Extended program before (after.insert name record) where
  ready := by
    intro other bound
    rcases (Bindings.contains_insert _ _ _ _).mp bound with rfl | earlier
    · exact grounded
    · exact extended.ready other earlier
  kept := fun other bound =>
    (Bindings.contains_insert _ _ _ _).mpr (.inr (extended.kept other bound))

/-- The fields that are filled in are grounded, and so is every struct met on the way. -/
theorem fillIn_ok {result : Record × Bindings Record}
    (ready : ∀ name, built.contains name = true → program.Grounded name)
    (filled : fillIn program.structs idle fields built record = .ok result) :
    (∀ field ∈ fields, Kind.ofName? field.type = none → program.Grounded field.type) ∧
      Extended program built result.2 := by
  fun_induction fillIn program.structs idle fields built record generalizing result with
  | case1 idle built record =>
    cases filled
    exact ⟨fun _ absent => absurd absent List.not_mem_nil, .refl ready⟩
  | case2 idle built record field rest kind isKind inductionHypothesis =>
    obtain ⟨grounded, extended⟩ := inductionHypothesis ready filled
    refine ⟨List.forall_mem_cons.mpr ⟨fun notKind => ?_, grounded⟩, extended⟩
    rw [isKind] at notKind
    cases notKind
  | case3 idle built record field rest notKind nested found inductionHypothesis =>
    obtain ⟨grounded, extended⟩ := inductionHypothesis ready filled
    have present : built.contains field.type = true := by simp [Bindings.contains, found]
    exact ⟨List.forall_mem_cons.mpr ⟨fun _ => ready _ present, grounded⟩, extended⟩
  | case4 => cases filled
  | case5 idle built record field rest notKind fresh declaration declared isIdle nested added
      nestedFilled nestedHypothesis restHypothesis =>
    obtain ⟨nestedGrounded, nestedExtended⟩ := nestedHypothesis ready nestedFilled
    have first : program.Grounded field.type := .intro declared nestedGrounded
    have inserted := nestedExtended.insert first nested
    obtain ⟨grounded, extended⟩ := restHypothesis inserted.ready filled
    exact ⟨List.forall_mem_cons.mpr ⟨fun _ => first, grounded⟩, inserted.trans extended⟩
  | case6 => cases filled
  | case7 => cases filled

/-- Every struct that is not idle, and so is being filled in, contains the structs in the fields. -/
def Inside (program : Program) (idle : List String) (fields : List TypedName) : Prop :=
  ∀ busy, busy ∉ idle → program.structs.contains busy = true →
    ∀ field ∈ fields, Kind.ofName? field.type = none → TransGen program.Contains busy field.type

theorem Inside.tail {field : TypedName} (inside : Inside program idle (field :: rest)) :
    Inside program idle rest :=
  fun busy notIdle declared other member =>
    inside busy notIdle declared other (List.mem_cons_of_mem _ member)

/-- A struct that is filled in as part of another is inside all that the other is in. -/
theorem Inside.nested {field : TypedName} {declaration : StructDecl}
    (inside : Inside program idle (field :: rest)) (notKind : Kind.ofName? field.type = none)
    (declared : program.struct? field.type = some declaration) :
    Inside program (without idle field.type) declaration.fields := by
  intro busy notIdle busyDeclared inner member innerNotKind
  have contains : program.Contains field.type inner.type :=
    ⟨innerNotKind, declaration, declared, inner, member, rfl⟩
  by_cases same : busy = field.type
  · exact same ▸ .single contains
  · have busyBefore : busy ∉ idle := by simpa [without, same] using notIdle
    exact .tail (inside busy busyBefore busyDeclared field List.mem_cons_self notKind) contains

/-- An error met while fields are filled in reports a flaw. -/
theorem fillIn_flaw {cause : CompileError}
    (held : ∀ field ∈ fields, Kind.ofName? field.type = none →
      ∃ holder, program.Contains holder field.type)
    (inside : Inside program idle fields)
    (failed : fillIn program.structs idle fields built record = .error cause) :
    program.Flaw cause := by
  fun_induction fillIn program.structs idle fields built record with
  | case1 => cases failed
  | case2 idle built record field rest kind isKind inductionHypothesis =>
    exact inductionHypothesis (List.forall_mem_cons.mp held).2 inside.tail failed
  | case3 idle built record field rest notKind nested found inductionHypothesis =>
    exact inductionHypothesis (List.forall_mem_cons.mp held).2 inside.tail failed
  | case4 idle built record field rest notKind fresh undeclared =>
    cases failed
    obtain ⟨holder, contains⟩ := held field List.mem_cons_self notKind
    exact .unknown contains undeclared
  | case5 idle built record field rest notKind fresh declaration declared isIdle nested added
      nestedFilled nestedHypothesis restHypothesis =>
    exact restHypothesis (List.forall_mem_cons.mp held).2 inside.tail failed
  | case6 idle built record field rest notKind fresh declaration declared isIdle inner nestedFailed
      nestedHypothesis =>
    cases failed
    refine nestedHypothesis ?_ (inside.nested notKind declared) nestedFailed
    intro other member otherNotKind
    exact ⟨field.type, otherNotKind, declaration, declared, other, member, rfl⟩
  | case7 idle built record field rest notKind fresh declaration declared notIdle =>
    -- The struct of the field is being filled in already, so it contains itself.
    cases failed
    have busy : program.structs.contains field.type = true := by simp [Bindings.contains, declared]
    exact .recursive (inside _ notIdle busy field List.mem_cons_self notKind)

/-- The declarations are the ones that the program finds under their names. -/
def Found (program : Program) (declarations : List StructDecl) : Prop :=
  ∀ declaration ∈ declarations, program.struct? declaration.name = some declaration

theorem build_ok {declaration : StructDecl}
    (found : program.struct? declaration.name = some declaration)
    (ready : ∀ name, before.contains name = true → program.Grounded name)
    (succeeded : build program.structs declaration before = .ok after) :
    after.contains declaration.name = true ∧ Extended program before after := by
  unfold build at succeeded
  split at succeeded
  · next prototype present =>
    cases succeeded
    exact ⟨by simp [Bindings.contains, present], .refl ready⟩
  · split at succeeded
    · next record inner filled =>
      cases succeeded
      obtain ⟨grounded, extended⟩ := fillIn_ok ready filled
      exact ⟨(Bindings.contains_insert _ _ _ _).mpr (.inl rfl),
        extended.insert (.intro found grounded) record⟩
    · cases succeeded

theorem buildAll_ok {declarations : List StructDecl} (found : Found program declarations)
    (ready : ∀ name, before.contains name = true → program.Grounded name)
    (succeeded : buildAll program.structs declarations before = .ok after) :
    (∀ declaration ∈ declarations, after.contains declaration.name = true) ∧
      Extended program before after := by
  induction declarations generalizing before with
  | nil =>
    cases succeeded
    exact ⟨fun _ absent => absurd absent List.not_mem_nil, .refl ready⟩
  | cons declaration others inductionHypothesis =>
    unfold buildAll at succeeded
    split at succeeded
    · next middle first =>
      obtain ⟨headFound, othersFound⟩ := List.forall_mem_cons.mp found
      obtain ⟨headAdded, headExtended⟩ := build_ok headFound ready first
      obtain ⟨added, extended⟩ := inductionHypothesis othersFound headExtended.ready succeeded
      exact ⟨List.forall_mem_cons.mpr ⟨extended.kept _ headAdded, added⟩,
        headExtended.trans extended⟩
    · cases succeeded

/-- When a struct by itself is filled in, no other one is. -/
theorem Inside.outermost {declaration : StructDecl}
    (found : program.struct? declaration.name = some declaration) :
    Inside program (without program.structs.names declaration.name) declaration.fields := by
  intro busy notIdle declared field member notKind
  have named := Bindings.contains_iff.mp declared
  have same : busy = declaration.name := by
    by_contra different
    exact notIdle (by simp [without, different, named])
  exact same ▸ .single ⟨notKind, declaration, found, field, member, rfl⟩

theorem build_flaw {declaration : StructDecl} {cause : CompileError}
    (found : program.struct? declaration.name = some declaration)
    (failed : build program.structs declaration before = .error cause) : program.Flaw cause := by
  unfold build at failed
  split at failed
  · cases failed
  · split at failed
    · cases failed
    · next inner fillFailed =>
      cases failed
      refine fillIn_flaw ?_ (.outermost found) fillFailed
      intro field member notKind
      exact ⟨declaration.name, notKind, declaration, found, field, member, rfl⟩

theorem buildAll_flaw {declarations : List StructDecl} {cause : CompileError}
    (found : Found program declarations)
    (failed : buildAll program.structs declarations before = .error cause) :
    program.Flaw cause := by
  induction declarations generalizing before with
  | nil => cases failed
  | cons declaration others inductionHypothesis =>
    obtain ⟨headFound, othersFound⟩ := List.forall_mem_cons.mp found
    unfold buildAll at failed
    split at failed
    · exact inductionHypothesis othersFound failed
    · next inner headFailed =>
      cases failed
      exact build_flaw headFound headFailed

/-- The structs of a program by the last declaration of their names. -/
def latest (program : Program) : List StructDecl :=
  program.structDecls.map fun declaration =>
    (program.structs.find? declaration.name).getD declaration

theorem found_latest (program : Program) : Found program (latest program) := by
  intro declaration member
  obtain ⟨written, writtenMember, rfl⟩ := List.mem_map.mp member
  have present : (program.struct? written.name).isSome := by
    rw [Program.struct?_eq_find?, List.find?_isSome]
    exact ⟨written, List.mem_reverse.mpr writtenMember, beq_self_eq_true _⟩
  obtain ⟨last, found⟩ := Option.isSome_iff_exists.mp present
  have named : last.name = written.name := by
    rw [Program.struct?_eq_find?] at found
    simpa using List.find?_some found
  change program.structs.find? written.name = some last at found
  rw [found, Option.getD_some, Program.struct?, named, found]

theorem mem_latest {name : String} {declaration : StructDecl}
    (found : program.struct? name = some declaration) :
    declaration ∈ latest program ∧ declaration.name = name := by
  have last := found
  rw [Program.struct?_eq_find?] at last
  have named : declaration.name = name := by simpa using List.find?_some last
  subst named
  refine ⟨List.mem_map.mpr ⟨declaration, ?_, ?_⟩, rfl⟩
  · exact List.mem_reverse.mp (List.mem_of_find?_eq_some last)
  · change program.structs.find? declaration.name = some declaration at found
    rw [found, Option.getD_some]

theorem prototypes_of_ofProgram {types : StructTypes} (succeeded : ofProgram program = .ok types) :
    (∀ declaration ∈ latest program, types.prototypes.contains declaration.name = true) ∧
      ∀ name, types.prototypes.contains name = true → program.Grounded name := by
  simp only [ofProgram] at succeeded
  split at succeeded
  · next built all =>
    cases succeeded
    have ready : ∀ name, ({} : Bindings Record).contains name = true → program.Grounded name :=
      fun _ absent => nomatch absent
    obtain ⟨added, extended⟩ := buildAll_ok (found_latest program) ready all
    exact ⟨added, extended.ready⟩
  · cases succeeded

theorem grounded_of_ofProgram {types : StructTypes} (succeeded : ofProgram program = .ok types)
    {name : String} {declaration : StructDecl}
    (found : program.struct? name = some declaration) : program.Grounded name := by
  obtain ⟨member, rfl⟩ := mem_latest found
  obtain ⟨added, grounded⟩ := prototypes_of_ofProgram succeeded
  exact grounded _ (added declaration member)

/-- A program whose struct types do not exist has the flaw that is reported for it. -/
theorem ofProgram_flaw {cause : CompileError} (failed : ofProgram program = .error cause) :
    program.Flaw cause := by
  simp only [ofProgram] at failed
  split at failed
  · cases failed
  · next inner all =>
    cases failed
    exact buildAll_flaw (found_latest program) all

/-- The struct types of a program exist exactly if every field has a known type and no struct
contains itself. -/
theorem ofProgram_ok_iff : (∃ types, ofProgram program = .ok types) ↔ program.StructsResolve := by
  constructor
  · rintro ⟨types, succeeded⟩
    constructor
    · intro name declaration found
      exact (grounded_of_ofProgram succeeded found).known found
    · intro name cycle
      obtain ⟨_, ⟨_, declaration, found, _⟩, _⟩ := TransGen.head'_iff.mp cycle
      exact (grounded_of_ofProgram succeeded found).not_contains_self cycle
  · intro resolve
    cases outcome : ofProgram program with
    | ok types => exact ⟨types, rfl⟩
    | error cause => exact absurd (ofProgram_flaw outcome) resolve.not_flaw

/-- The types with a default value are those that the program knows. -/
theorem defaultValue_ok_iff {types : StructTypes} (succeeded : ofProgram program = .ok types)
    (type : String) :
    (∃ value, types.defaultValue type = .ok value) ↔ program.Resolves type := by
  obtain ⟨added, grounded⟩ := prototypes_of_ofProgram succeeded
  unfold defaultValue Program.Resolves
  cases isKind : Kind.ofName? type with
  | some kind => simp
  | none =>
    cases prototype : types.prototypes.find? type with
    | some record =>
      have declared := (grounded type (by simp [Bindings.contains, prototype])).declared
      simp [declared]
    | none =>
      have undeclared : program.struct? type = none := by
        rw [Option.eq_none_iff_forall_ne_some]
        intro declaration found
        obtain ⟨member, rfl⟩ := mem_latest found
        have present := added declaration member
        rw [Bindings.contains, prototype] at present
        cases present
      simp [undeclared]

end StructTypes

end StackLang
