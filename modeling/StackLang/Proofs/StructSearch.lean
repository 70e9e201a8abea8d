import Mathlib
import StackLang.Proofs.Prototypes

/-!
# How struct types are found

The prototypes of a program are found by a search from struct to struct that nothing bounds but its
own rules: it goes into every struct that is neither ready nor being filled in already. `Searches`
states the rules, so that a derivation is a search that has come to its end. Every search does, in
one way (`Searches.eq_fillIn`, `searches_fillIn`). The defaults that it leaves are described by
`Instantiates`: a struct has the fields of its declaration, each with the default of its type.
-/

namespace StackLang

/-- The field that a name stands for; of several fields with one name it is the last. -/
def StructDecl.field? (declaration : StructDecl) (name : String) : Option TypedName :=
  declaration.fields.reverse.find? fun field => field.name == name

namespace StructTypes

/-- The search for the values of fields, with what it finds or the error that it stops at.
`visiting` lists the structs that are being filled in, the innermost first. -/
inductive Searches (declared : Bindings StructDecl) :
    List String → List TypedName → Bindings Record → Record →
      Except CompileError (Record × Bindings Record) → Prop where
  | done (visiting : List String) (built : Bindings Record) (record : Record) :
      Searches declared visiting [] built record (.ok (record, built))
  | kind {visiting : List String} {field : TypedName} {rest : List TypedName}
      {built : Bindings Record} {record : Record} {kind : Kind}
      {outcome : Except CompileError (Record × Bindings Record)}
      (isKind : Kind.ofName? field.type = some kind)
      (later : Searches declared visiting rest built (record.insert field.name (.zero kind))
        outcome) :
      Searches declared visiting (field :: rest) built record outcome
  | unknown {visiting : List String} {field : TypedName} {rest : List TypedName}
      {built : Bindings Record} {record : Record} (notKind : Kind.ofName? field.type = none)
      (undeclared : declared.find? field.type = none) :
      Searches declared visiting (field :: rest) built record (.error (.unknownType field.type))
  | ready {visiting : List String} {field : TypedName} {rest : List TypedName}
      {built : Bindings Record} {record nested : Record} {declaration : StructDecl}
      {outcome : Except CompileError (Record × Bindings Record)}
      (notKind : Kind.ofName? field.type = none)
      (found : declared.find? field.type = some declaration)
      (kept : built.find? field.type = some nested)
      (later : Searches declared visiting rest built (record.insert field.name (.struct nested))
        outcome) :
      Searches declared visiting (field :: rest) built record outcome
  | recursive {visiting : List String} {field : TypedName} {rest : List TypedName}
      {built : Bindings Record} {record : Record} {declaration : StructDecl}
      (notKind : Kind.ofName? field.type = none)
      (found : declared.find? field.type = some declaration)
      (fresh : built.find? field.type = none) (busy : field.type ∈ visiting) :
      Searches declared visiting (field :: rest) built record
        (.error (.recursiveStruct field.type))
  | failed {visiting : List String} {field : TypedName} {rest : List TypedName}
      {built : Bindings Record} {record : Record} {declaration : StructDecl} {cause : CompileError}
      (notKind : Kind.ofName? field.type = none)
      (found : declared.find? field.type = some declaration)
      (fresh : built.find? field.type = none) (unvisited : field.type ∉ visiting)
      (inner : Searches declared (field.type :: visiting) declaration.fields built {}
        (.error cause)) :
      Searches declared visiting (field :: rest) built record (.error cause)
  | nested {visiting : List String} {field : TypedName} {rest : List TypedName}
      {built added : Bindings Record} {record nested : Record} {declaration : StructDecl}
      {outcome : Except CompileError (Record × Bindings Record)}
      (notKind : Kind.ofName? field.type = none)
      (found : declared.find? field.type = some declaration)
      (fresh : built.find? field.type = none) (unvisited : field.type ∉ visiting)
      (inner : Searches declared (field.type :: visiting) declaration.fields built {}
        (.ok (nested, added)))
      (later : Searches declared visiting rest (added.insert field.type nested)
        (record.insert field.name (.struct nested)) outcome) :
      Searches declared visiting (field :: rest) built record outcome

/-- The search for the prototypes of structs, one after the other. -/
inductive SearchesAll (declared : Bindings StructDecl) :
    List StructDecl → Bindings Record → Except CompileError (Bindings Record) → Prop where
  | done (built : Bindings Record) : SearchesAll declared [] built (.ok built)
  | ready {declaration : StructDecl} {others : List StructDecl} {built : Bindings Record}
      {record : Record} {outcome : Except CompileError (Bindings Record)}
      (kept : built.find? declaration.name = some record)
      (later : SearchesAll declared others built outcome) :
      SearchesAll declared (declaration :: others) built outcome
  | failed {declaration : StructDecl} {others : List StructDecl} {built : Bindings Record}
      {cause : CompileError} (fresh : built.find? declaration.name = none)
      (inner : Searches declared [declaration.name] declaration.fields built {} (.error cause)) :
      SearchesAll declared (declaration :: others) built (.error cause)
  | filled {declaration : StructDecl} {others : List StructDecl} {built added : Bindings Record}
      {record : Record} {outcome : Except CompileError (Bindings Record)}
      (fresh : built.find? declaration.name = none)
      (inner : Searches declared [declaration.name] declaration.fields built {}
        (.ok (record, added)))
      (later : SearchesAll declared others (added.insert declaration.name record) outcome) :
      SearchesAll declared (declaration :: others) built outcome

/-- The idle structs are the declared ones that are not being visited. -/
def Apart (declared : Bindings StructDecl) (idle visiting : List String) : Prop :=
  ∀ name, declared.contains name = true → (name ∈ idle ↔ name ∉ visiting)

variable {declared : Bindings StructDecl} {idle visiting : List String} {fields : List TypedName}
  {built : Bindings Record} {record : Record}

theorem Apart.visit (apart : Apart declared idle visiting) (name : String) :
    Apart declared (without idle name) (name :: visiting) := by
  intro other bound
  simp [without, apart other bound, and_comm]

theorem Apart.outermost (declared : Bindings StructDecl) (name : String) :
    Apart declared (without declared.names name) [name] := by
  intro other bound
  simp [without, Bindings.contains_iff.mp bound]

theorem Apart.mem_iff {name : String} {declaration : StructDecl}
    (apart : Apart declared idle visiting) (found : declared.find? name = some declaration) :
    name ∈ idle ↔ name ∉ visiting :=
  apart name (by simp [Bindings.contains, found])

theorem Faithful.fresh {name : String} (faithful : Faithful declared built)
    (undeclared : declared.find? name = none) : built.find? name = none := by
  rw [Option.eq_none_iff_forall_ne_some]
  intro record known
  obtain ⟨declaration, found, _⟩ := faithful.prototype name record known
  cases undeclared.symm.trans found

/-- Every search ends. -/
theorem searches_fillIn (faithful : Faithful declared built)
    (apart : Apart declared idle visiting) :
    Searches declared visiting fields built record (fillIn declared idle fields built record) := by
  fun_induction fillIn declared idle fields built record generalizing visiting with
  | case1 idle built record => exact .done visiting built record
  | case2 idle built record field rest kind isKind inductionHypothesis =>
    exact .kind isKind (inductionHypothesis faithful apart)
  | case3 idle built record field rest notKind nested kept inductionHypothesis =>
    obtain ⟨declaration, found, _⟩ := faithful.prototype field.type nested kept
    exact .ready notKind found kept (inductionHypothesis faithful apart)
  | case4 idle built record field rest notKind fresh undeclared =>
    exact .unknown notKind undeclared
  | case5 idle built record field rest notKind fresh declaration found isIdle nested added
      nestedFilled nestedHypothesis restHypothesis =>
    have inner := nestedHypothesis faithful (apart.visit field.type)
    rw [nestedFilled] at inner
    obtain ⟨fills, faithfulInner⟩ := fillIn_fills faithful nestedFilled
    exact .nested notKind found fresh ((apart.mem_iff found).mp isIdle) inner
      (restHypothesis (faithfulInner.insert ⟨declaration, found, fills⟩) apart)
  | case6 idle built record field rest notKind fresh declaration found isIdle cause nestedFailed
      nestedHypothesis =>
    have inner := nestedHypothesis faithful (apart.visit field.type)
    rw [nestedFailed] at inner
    exact .failed notKind found fresh ((apart.mem_iff found).mp isIdle) inner
  | case7 idle built record field rest notKind fresh declaration found notIdle =>
    have busy : field.type ∈ visiting := by
      by_contra unvisited
      exact notIdle ((apart.mem_iff found).mpr unvisited)
    exact .recursive notKind found fresh busy

/-- No search ends in two ways. -/
theorem Searches.eq_fillIn {outcome : Except CompileError (Record × Bindings Record)}
    (search : Searches declared visiting fields built record outcome)
    (faithful : Faithful declared built) (apart : Apart declared idle visiting) :
    fillIn declared idle fields built record = outcome := by
  induction search generalizing idle with
  | done visiting built record => rw [fillIn]
  | kind isKind _ inductionHypothesis =>
    rw [fillIn_kind isKind]
    exact inductionHypothesis faithful apart
  | unknown notKind undeclared => rw [fillIn, notKind, faithful.fresh undeclared, undeclared]
  | ready notKind found kept _ inductionHypothesis =>
    rw [fillIn_kept notKind kept]
    exact inductionHypothesis faithful apart
  | recursive notKind found fresh busy =>
    have notIdle := mt (apart.mem_iff found).mp (not_not.mpr busy)
    rw [fillIn, notKind, fresh, found]
    simp [notIdle]
  | failed notKind found fresh unvisited _ nestedHypothesis =>
    have isIdle := (apart.mem_iff found).mpr unvisited
    have inner := nestedHypothesis faithful (apart.visit _)
    rw [fillIn, notKind, fresh, found]
    simp [isIdle, inner]
  | @nested _ field _ _ _ _ _ declaration _ notKind found fresh unvisited _ _ nestedHypothesis
      restHypothesis =>
    have isIdle := (apart.mem_iff found).mpr unvisited
    have inner := nestedHypothesis faithful (apart.visit _)
    obtain ⟨fills, faithfulInner⟩ := fillIn_fills faithful inner
    have later := restHypothesis (faithfulInner.insert ⟨declaration, found, fills⟩) apart
    rw [fillIn, notKind, fresh, found]
    simp [isIdle, inner, later]

/-- Every search for prototypes ends. -/
theorem searchesAll_buildAll {declarations : List StructDecl}
    (found : ∀ declaration ∈ declarations, declared.find? declaration.name = some declaration)
    (faithful : Faithful declared built) :
    SearchesAll declared declarations built (buildAll declared declarations built) := by
  induction declarations generalizing built with
  | nil => exact .done built
  | cons declaration others inductionHypothesis =>
    obtain ⟨headFound, othersFound⟩ := List.forall_mem_cons.mp found
    have search : Searches declared [declaration.name] declaration.fields built {} _ :=
      searches_fillIn faithful (.outermost declared declaration.name)
    unfold buildAll build
    cases kept : built.find? declaration.name with
    | some record => exact .ready kept (inductionHypothesis othersFound faithful)
    | none =>
      cases filled : fillIn declared (without declared.names declaration.name) declaration.fields
        built {} with
      | error cause =>
        rw [filled] at search
        exact .failed kept search
      | ok result =>
        rw [filled] at search
        obtain ⟨fills, faithfulInner⟩ := fillIn_fills faithful filled
        exact .filled kept search (inductionHypothesis othersFound
          (faithfulInner.insert ⟨declaration, headFound, fills⟩))

/-- No search for prototypes ends in two ways. -/
theorem SearchesAll.eq_buildAll {declarations : List StructDecl}
    {outcome : Except CompileError (Bindings Record)}
    (search : SearchesAll declared declarations built outcome)
    (found : ∀ declaration ∈ declarations, declared.find? declaration.name = some declaration)
    (faithful : Faithful declared built) : buildAll declared declarations built = outcome := by
  induction search with
  | done built => rfl
  | ready kept _ inductionHypothesis =>
    simp only [buildAll, build, kept]
    exact inductionHypothesis (List.forall_mem_cons.mp found).2 faithful
  | @failed declaration _ _ _ fresh inner =>
    have filled := inner.eq_fillIn faithful (.outermost declared declaration.name)
    simp only [buildAll, build, fresh, filled]
  | @filled declaration _ _ _ _ _ fresh inner _ inductionHypothesis =>
    obtain ⟨headFound, othersFound⟩ := List.forall_mem_cons.mp found
    have filled := inner.eq_fillIn faithful (.outermost declared declaration.name)
    obtain ⟨fills, faithfulInner⟩ := fillIn_fills faithful filled
    simp only [buildAll, build, fresh, filled]
    exact inductionHypothesis othersFound (faithfulInner.insert ⟨declaration, headFound, fills⟩)

/-- A struct has the fields of a declaration and no others, each with the default of its type. -/
structure Instantiates (types : StructTypes) (declaration : StructDecl) (record : Record) : Prop
    where
  present : ∀ name field, declaration.field? name = some field →
    ∃ value, record.find? name = some value ∧ types.defaultValue field.type = .ok value
  absent : ∀ name, declaration.field? name = none → record.find? name = none

variable {program : Program} {types : StructTypes} {result : Record} {name : String}

/-- What a field holds when fields have been stored in a record: the default of the last one with
that name, or what the record held before. -/
def FieldOf (types : StructTypes) (fields : List TypedName) (record result : Record)
    (name : String) : Prop :=
  match fields.reverse.find? fun field => field.name == name with
  | some field =>
    ∃ value, result.find? name = some value ∧ types.defaultValue field.type = .ok value
  | none => result.find? name = record.find? name

theorem FieldOf.cons {field : TypedName} {rest : List TypedName} {value : Value}
    (default : types.defaultValue field.type = .ok value)
    (later : FieldOf types rest (record.insert field.name value) result name) :
    FieldOf types (field :: rest) record result name := by
  unfold FieldOf at later ⊢
  rw [List.reverse_cons, List.find?_append]
  cases last : rest.reverse.find? fun field => field.name == name with
  | some other =>
    rw [last] at later
    exact later
  | none =>
    rw [last, Fields.find?_insert] at later
    by_cases same : name = field.name
    · subst same
      simpa [default] using later
    · simpa [same, Ne.symm same] using later

theorem defaultValue_of_kind {type : String} {kind : Kind}
    (isKind : Kind.ofName? type = some kind) : types.defaultValue type = .ok (.zero kind) := by
  rw [defaultValue, isKind]

theorem defaultValue_of_prototype {type : String} (succeeded : ofProgram program = .ok types)
    (notKind : Kind.ofName? type = none) (prototype : IsPrototype program.structs type record) :
    types.defaultValue type = .ok (.struct record) := by
  rw [defaultValue, notKind, (find?_prototypes_iff succeeded).mpr prototype]

theorem Fills.fieldOf (succeeded : ofProgram program = .ok types)
    (fills : Fills program.structs fields record result) (name : String) :
    FieldOf types fields record result name := by
  induction fills with
  | done record => rfl
  | kind isKind _ inductionHypothesis =>
    exact .cons (defaultValue_of_kind isKind) inductionHypothesis
  | struct notKind found inner _ _ inductionHypothesis =>
    exact .cons (defaultValue_of_prototype succeeded notKind ⟨_, found, inner⟩) inductionHypothesis

theorem Fills.instantiates {declaration : StructDecl} (succeeded : ofProgram program = .ok types)
    (fills : Fills program.structs declaration.fields {} record) :
    types.Instantiates declaration record where
  present := by
    intro name field last
    have held := fills.fieldOf succeeded name
    unfold FieldOf at held
    unfold StructDecl.field? at last
    rwa [last] at held
  absent := by
    intro name missing
    have held := fills.fieldOf succeeded name
    unfold FieldOf at held
    unfold StructDecl.field? at missing
    rwa [missing] at held

/-- The default of a declared struct has its fields with their defaults. -/
theorem exists_defaultValue_struct {type : String} {declaration : StructDecl}
    (succeeded : ofProgram program = .ok types) (notKind : Kind.ofName? type = none)
    (found : program.struct? type = some declaration) :
    ∃ record, types.defaultValue type = .ok (.struct record) ∧
      types.Instantiates declaration record := by
  obtain ⟨member, rfl⟩ := mem_latest found
  have present := (prototypes_of_ofProgram succeeded).1 declaration member
  obtain ⟨record, known⟩ := Option.isSome_iff_exists.mp present
  have prototype := (find?_prototypes_iff succeeded).mp known
  have ⟨_, foundHere, fills⟩ := prototype
  cases found.symm.trans foundHere
  exact ⟨record, defaultValue_of_prototype succeeded notKind prototype,
    fills.instantiates succeeded⟩

theorem defaultValue_of_undeclared {type : String} (succeeded : ofProgram program = .ok types)
    (notKind : Kind.ofName? type = none) (undeclared : program.struct? type = none) :
    types.defaultValue type = .error (.unknownType type) := by
  rw [defaultValue, notKind, (ofProgram_faithful succeeded).fresh undeclared]

theorem searchesAll_iff {outcome : Except CompileError (Bindings Record)} :
    SearchesAll program.structs (latest program) {} outcome ↔
      outcome = (ofProgram program).map prototypes := by
  have built : (ofProgram program).map prototypes =
      buildAll program.structs (latest program) {} := by
    unfold ofProgram latest
    dsimp only
    cases buildAll program.structs _ {} <;> rfl
  rw [built]
  constructor
  · intro search
    exact (search.eq_buildAll (found_latest program) (.empty _)).symm
  · rintro rfl
    exact searchesAll_buildAll (found_latest program) (.empty _)

/-- The search for the struct types of a program always comes to one end. It is a success exactly if
every field has a known type and no struct contains itself; otherwise the error names a struct that
does, or an unknown type of a field. After a success a kind of values has its zero as the default, a
declared struct has its fields with their defaults, and any other name is unknown. -/
theorem struct_types_are_resolved (program : Program) :
    (∀ outcome, SearchesAll program.structs (latest program) {} outcome ↔
      outcome = (ofProgram program).map prototypes) ∧
    ((∃ types, ofProgram program = .ok types) ↔ program.StructsResolve) ∧
    (∀ cause, ofProgram program = .error cause → program.Flaw cause) ∧
    ∀ types, ofProgram program = .ok types →
      (∀ type kind, Kind.ofName? type = some kind → types.defaultValue type = .ok (.zero kind)) ∧
      (∀ type declaration, Kind.ofName? type = none → program.struct? type = some declaration →
        ∃ record, types.defaultValue type = .ok (.struct record) ∧
          types.Instantiates declaration record) ∧
      ∀ type, Kind.ofName? type = none → program.struct? type = none →
        types.defaultValue type = .error (.unknownType type) := by
  refine ⟨fun _ => searchesAll_iff, ofProgram_ok_iff, fun _ => ofProgram_flaw, ?_⟩
  intro types succeeded
  refine ⟨fun _ _ => defaultValue_of_kind, ?_, ?_⟩
  · intro type declaration notKind found
    exact exists_defaultValue_struct succeeded notKind found
  · intro type notKind undeclared
    exact defaultValue_of_undeclared succeeded notKind undeclared

/-- Structs of which the first is declared before the one in it, has a field twice, and does not see
the first declaration of that one. -/
def figures : Program where
  items := [
    .struct ⟨"Line", [⟨"Point", "start"⟩, ⟨"Int", "label"⟩, ⟨"string", "label"⟩]⟩,
    .struct ⟨"Point", [⟨"Missing", "x"⟩]⟩,
    .struct ⟨"Point", [⟨"int", "x"⟩, ⟨"BOOL", "seen"⟩]⟩]

/-- Structs of which the last two contain each other. -/
def circular : Program where
  items := [
    .struct ⟨"Entry", [⟨"Node", "first"⟩]⟩,
    .struct ⟨"Node", [⟨"Int", "key"⟩, ⟨"Link", "next"⟩]⟩,
    .struct ⟨"Link", [⟨"Node", "node"⟩]⟩]

/-- A line starts with the default point and an empty label, and the cycle behind `Entry` is
reported at a struct on it. -/
theorem figures_are_resolved :
    (∃ types line point, ofProgram figures = .ok types ∧
      types.defaultValue "Line" = .ok (.struct line) ∧ types.defaultValue "Point" = .ok point ∧
      line.find? "start" = some point ∧ line.find? "label" = some (.string "")) ∧
    ∃ name, ofProgram circular = .error (.recursiveStruct name) ∧
      Relation.TransGen circular.Contains name name := by
  constructor
  · have succeeded : ofProgram figures = .ok ⟨.ofList [
        ("Line", .ofList [("start", .struct (.ofList [("x", .int 0), ("seen", .bool false)])),
          ("label", .string "")]),
        ("Point", .ofList [("x", .int 0), ("seen", .bool false)])]⟩ := by cbv
    obtain ⟨_, _, _, defaults⟩ := struct_types_are_resolved figures
    obtain ⟨kinds, structs, _⟩ := defaults _ succeeded
    obtain ⟨line, lineDefault, instantiates⟩ := structs "Line" _ rfl rfl
    obtain ⟨point, start, pointDefault⟩ := instantiates.present "start" _ rfl
    obtain ⟨label, labelled, labelDefault⟩ := instantiates.present "label" _ rfl
    cases labelDefault.symm.trans (kinds "string" .string rfl)
    exact ⟨_, line, point, succeeded, lineDefault, pointDefault, start, labelled⟩
  · have failed : ofProgram circular = .error (.recursiveStruct "Node") := by cbv
    obtain ⟨_, _, flaws, _⟩ := struct_types_are_resolved circular
    cases flaws _ failed with
    | recursive cycle => exact ⟨"Node", failed, cycle⟩

end StructTypes

end StackLang
