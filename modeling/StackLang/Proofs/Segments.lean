import StackLang.Proofs.Placement

/-!
# How the code of a program is divided

The code of a program consists of segments: one for each function declaration, in program order and
whether or not a later declaration has the same name, and a last one for the global statements.
`Program.Segmented` collects what is known of them, and `Program.segmented_of_compile` shows it of
every program that is compiled. The function table leads to the last segment of each name.
-/

namespace StackLang

/-- The code of a body at the address where it begins. -/
structure Segment where
  /-- The function whose body it is, if it is not that of the global statements. -/
  owner : Option FunctionDecl
  start : Nat
  code : Bytecode

namespace Segment

/-- The address behind a segment. -/
def stop (segment : Segment) : Nat :=
  segment.start + segment.code.size

/-- The addresses in a segment. -/
def Contains (segment : Segment) (address : Nat) : Prop :=
  segment.start ≤ address ∧ address < segment.stop

/-- The instructions of segments, one after the other. -/
def codes (segments : List Segment) : List Instruction :=
  segments.flatMap fun segment => segment.code.toList

/-- Each segment begins where the one before it stops, and the first one at the given address. -/
def Adjoin : Nat → List Segment → Prop
  | _, [] => True
  | start, segment :: rest => segment.start = start ∧ Adjoin segment.stop rest

/-- A segment is the last one that belongs to a function of the given name. -/
def LastOf (segments : List Segment) (name : String) (segment : Segment) : Prop :=
  ∃ front back, segments = front ++ segment :: back ∧
    (∃ function, segment.owner = some function ∧ function.name = name) ∧
    ∀ later ∈ back, ∀ function, later.owner = some function → function.name ≠ name

variable {start : Nat} {segments front back : List Segment} {segment : Segment} {name : String}

theorem codes_append : codes (front ++ back) = codes front ++ codes back :=
  List.flatMap_append

theorem codes_singleton : codes [segment] = segment.code.toList :=
  List.flatMap_singleton _ _

theorem adjoin_append :
    Adjoin start (front ++ back) ↔
      Adjoin start front ∧ Adjoin (start + (codes front).length) back := by
  induction front generalizing start with
  | nil => simp [Adjoin, codes]
  | cons first rest inductionHypothesis =>
    rw [List.cons_append, Adjoin, Adjoin, inductionHypothesis, and_assoc]
    apply and_congr_right
    rintro rfl
    simp [codes, stop, Nat.add_assoc]

/-- The segments before one take up the addresses before it. -/
theorem Adjoin.start_eq (adjoin : Adjoin 0 (front ++ segment :: back)) :
    segment.start = (codes front).length := by
  have later := (adjoin_append.mp adjoin).2.1
  rwa [Nat.zero_add] at later

theorem Adjoin.start_le (adjoin : Adjoin start segments) (member : segment ∈ segments) :
    start ≤ segment.start := by
  induction segments generalizing start with
  | nil => cases member
  | cons first rest inductionHypothesis =>
    obtain ⟨rfl, restAdjoins⟩ := adjoin
    rcases List.mem_cons.mp member with rfl | later
    · exact Nat.le_refl _
    · exact Nat.le_trans (Nat.le_add_right _ _) (inductionHypothesis restAdjoins later)

/-- Segments do not overlap. -/
theorem Adjoin.apart (adjoin : Adjoin start segments) :
    segments.Pairwise fun earlier later => earlier.stop ≤ later.start := by
  induction segments generalizing start with
  | nil => exact .nil
  | cons first rest inductionHypothesis =>
    obtain ⟨_, restAdjoins⟩ := adjoin
    exact List.pairwise_cons.mpr
      ⟨fun _ member => restAdjoins.start_le member, inductionHypothesis restAdjoins⟩

/-- Every address in the code belongs to a segment. -/
theorem Adjoin.covers (adjoin : Adjoin start segments) {address : Nat} (behind : start ≤ address)
    (inside : address < start + (codes segments).length) :
    ∃ segment ∈ segments, segment.Contains address := by
  induction segments generalizing start with
  | nil => simp only [codes, List.flatMap_nil, List.length_nil] at inside; omega
  | cons first rest inductionHypothesis =>
    obtain ⟨rfl, restAdjoins⟩ := adjoin
    have sizes : (codes (first :: rest)).length = first.code.size + (codes rest).length := by
      simp [codes]
    by_cases here : address < first.stop
    · exact ⟨first, List.mem_cons_self, behind, here⟩
    · have reach : address < first.stop + (codes rest).length := by
        unfold stop
        omega
      obtain ⟨segment, member, contains⟩ :=
        inductionHypothesis restAdjoins (Nat.le_of_not_lt here) reach
      exact ⟨segment, List.mem_cons_of_mem _ member, contains⟩

theorem LastOf.member (last : LastOf segments name segment) : segment ∈ segments := by
  obtain ⟨front, back, rfl, _⟩ := last
  simp

theorem LastOf.concat {other : Segment} (last : LastOf segments name segment)
    (different : ∀ function, other.owner = some function → function.name ≠ name) :
    LastOf (segments ++ [other]) name segment := by
  obtain ⟨front, back, rfl, owned, later⟩ := last
  refine ⟨front, back ++ [other], by simp, owned, ?_⟩
  intro one member
  rcases List.mem_append.mp member with inside | added
  · exact later one inside
  · cases List.mem_singleton.mp added
    exact different

theorem LastOf.added {function : FunctionDecl} (owned : segment.owner = some function) :
    LastOf (segments ++ [segment]) function.name segment :=
  ⟨segments, [], rfl, ⟨function, owned, rfl⟩, fun _ absent => nomatch absent⟩

end Segment

theorem Bytecode.Holds.of_toList {code : Bytecode} {front fragment back : List Instruction}
    (parts : code.toList = front ++ (fragment ++ back)) : code.Holds front.length fragment := by
  intro index instruction found
  rw [← Array.getElem?_toList, parts, List.getElem?_append_right (Nat.le_add_right _ _),
    Nat.add_sub_cancel_left, List.getElem?_append_left (List.getElem?_eq_some_iff.mp found).1]
  exact found

open Segment

namespace Layout

/-- What is known of the segments of a layout. -/
structure Divided (declared : Bindings FunctionDecl) (types : StructTypes) (layout : Layout)
    (segments : List Segment) : Prop where
  compiled : ∀ segment ∈ segments, ∃ function, segment.owner = some function ∧
    function.compile declared types = .ok segment.code
  adjoin : Adjoin 0 segments
  whole : layout.code.toList = codes segments
  entries : ∀ name entry, layout.functions.find? name = some entry →
    ∃ segment, LastOf segments name segment ∧ segment.owner = some entry.declaration ∧
      segment.start = entry.address

variable {declared : Bindings FunctionDecl} {types : StructTypes} {layout final : Layout}
  {segments : List Segment}

theorem Divided.empty : Divided declared types {} [] where
  compiled := fun _ absent => nomatch absent
  adjoin := trivial
  whole := rfl
  entries := fun _ _ absent => nomatch absent

theorem Divided.adjoin_concat (divided : Divided declared types layout segments)
    (owner : Option FunctionDecl) (body : Bytecode) :
    Adjoin 0 (segments ++ [⟨owner, layout.code.size, body⟩]) := by
  refine adjoin_append.mpr ⟨divided.adjoin, ?_, trivial⟩
  rw [← divided.whole, Nat.zero_add, Array.length_toList]

theorem Divided.whole_concat (divided : Divided declared types layout segments)
    (owner : Option FunctionDecl) (body : Bytecode) :
    (layout.code ++ body).toList = codes (segments ++ [⟨owner, layout.code.size, body⟩]) := by
  rw [codes_append, ← divided.whole, codes_singleton, Array.toList_append]

theorem Divided.place {function : FunctionDecl} {body : Bytecode}
    (divided : Divided declared types layout segments)
    (compiled : function.compile declared types = .ok body) :
    Divided declared types (layout.place function body)
      (segments ++ [⟨some function, layout.code.size, body⟩]) where
  compiled := by
    intro segment member
    rcases List.mem_append.mp member with earlier | added
    · exact divided.compiled segment earlier
    · cases List.mem_singleton.mp added
      exact ⟨function, rfl, compiled⟩
  adjoin := divided.adjoin_concat _ body
  whole := divided.whole_concat _ body
  entries := by
    intro name entry found
    simp only [Layout.place, FunctionTable.define, Bindings.find?_insert] at found
    split at found
    · next same =>
      cases found
      rw [same]
      exact ⟨_, LastOf.added rfl, rfl, rfl⟩
    · next different =>
      obtain ⟨segment, last, owned, started⟩ := divided.entries name entry found
      refine ⟨segment, last.concat ?_, owned, started⟩
      rintro other same rfl
      cases same
      exact different rfl

/-- Placing functions adds a segment for each of them. -/
theorem Divided.placeAll {functions : List FunctionDecl}
    (divided : Divided declared types layout segments)
    (succeeded : placeAll declared types functions layout = (final, .ok ())) :
    ∃ more, more.map Segment.owner = functions.map some ∧
      Divided declared types final (segments ++ more) := by
  induction functions generalizing layout segments with
  | nil =>
    cases succeeded
    exact ⟨[], rfl, by rwa [List.append_nil]⟩
  | cons function rest inductionHypothesis =>
    simp only [Layout.placeAll] at succeeded
    split at succeeded
    · next body compiled =>
      obtain ⟨more, owners, later⟩ := inductionHypothesis (divided.place compiled) succeeded
      refine ⟨⟨some function, layout.code.size, body⟩ :: more, congrArg (some function :: ·) owners,
        ?_⟩
      rwa [List.append_assoc] at later
    · cases succeeded

end Layout

/-- The segments of a compiled program. -/
structure Program.Segmented (program : Program) (types : StructTypes) (compiled : CompiledProgram)
    (segments : List Segment) : Prop where
  resolved : StructTypes.ofProgram program = .ok types
  /-- There is one for each function declaration in program order, and one more. -/
  owners : segments.map Segment.owner = program.functionDecls.map some ++ [none]
  functions : ∀ segment ∈ segments, ∀ function, segment.owner = some function →
    function.compile program.functions types = .ok segment.code
  globals : ∀ segment ∈ segments, segment.owner = none →
    (BodyContext.forGlobals program.functions types).compileBody program.globalStatements =
      .ok segment.code
  adjoin : Adjoin 0 segments
  whole : compiled.code.toList = codes segments
  /-- A name leads to the segment of its last declaration. -/
  entries : ∀ name entry, compiled.functions.find? name = some entry →
    ∃ segment, LastOf segments name segment ∧ segment.owner = some entry.declaration ∧
      segment.start = entry.address
  /-- The last segment is that of the global statements. -/
  initialiser : ∃ front segment, segments = front ++ [segment] ∧ segment.owner = none ∧
    segment.start = compiled.initAddress ∧ segment.stop = compiled.code.size

theorem Layout.Divided.finish {program : Program} {types : StructTypes} {layout : Layout}
    {segments : List Segment} {body : Bytecode}
    (divided : Divided program.functions types layout segments)
    (resolved : StructTypes.ofProgram program = .ok types)
    (owners : segments.map Segment.owner = program.functionDecls.map some)
    (compiled : (BodyContext.forGlobals program.functions types).compileBody
      program.globalStatements = .ok body) :
    program.Segmented types (layout.finish body)
      (segments ++ [⟨none, layout.code.size, body⟩]) where
  resolved := resolved
  owners := by rw [List.map_append, owners, List.map_singleton]
  functions := by
    intro segment member function owned
    rcases List.mem_append.mp member with earlier | added
    · obtain ⟨other, same, code⟩ := divided.compiled segment earlier
      rw [owned] at same
      cases same
      exact code
    · cases List.mem_singleton.mp added
      cases owned
  globals := by
    intro segment member unowned
    rcases List.mem_append.mp member with earlier | added
    · obtain ⟨other, owned, _⟩ := divided.compiled segment earlier
      rw [unowned] at owned
      cases owned
    · cases List.mem_singleton.mp added
      exact compiled
  adjoin := divided.adjoin_concat none body
  whole := divided.whole_concat none body
  entries := by
    intro name entry found
    obtain ⟨segment, last, owned, started⟩ := divided.entries name entry found
    exact ⟨segment, last.concat (fun _ impossible => nomatch impossible), owned, started⟩
  initialiser := ⟨segments, _, rfl, rfl, rfl, Array.size_append.symm⟩

theorem Program.segmented_of_compile {program : Program} {compiled : CompiledProgram}
    (accepted : program.compile = .ok compiled) :
    ∃ types segments, program.Segmented types compiled segments := by
  unfold Program.compile Program.compilation at accepted
  split at accepted
  · cases accepted
  · next types resolved =>
    dsimp only at accepted
    split at accepted
    · cases accepted
    · next layout placed =>
      split at accepted
      · cases accepted
      · next body compiledBody =>
        cases accepted
        obtain ⟨segments, owners, divided⟩ := Layout.Divided.empty.placeAll placed
        exact ⟨types, _, Layout.Divided.finish divided resolved owners compiledBody⟩

namespace Program.Segmented

variable {program : Program} {types : StructTypes} {compiled : CompiledProgram}
  {segments : List Segment} {segment : Segment}

/-- The code of a segment stands at its start. -/
theorem holds (segmented : program.Segmented types compiled segments)
    (member : segment ∈ segments) : compiled.code.Holds segment.start segment.code.toList := by
  obtain ⟨front, back, rfl⟩ := List.append_of_mem member
  have parts : compiled.code.toList =
      codes front ++ (segment.code.toList ++ codes back) := by
    rw [segmented.whole, codes_append]
    simp [codes]
  rw [segmented.adjoin.start_eq]
  exact .of_toList parts

/-- The code of a segment is that of a body, with the return at its end. -/
theorem bodyCode (segmented : program.Segmented types compiled segments)
    (member : segment ∈ segments) :
    ∃ context body, segment.code.toList = BodyContext.bodyCode context body := by
  cases owned : segment.owner with
  | some function =>
    have code := segmented.functions segment member function owned
    exact ⟨_, _, (FunctionDecl.compile_ok code).2⟩
  | none =>
    have code := segmented.globals segment member owned
    exact ⟨_, _, (BodyContext.compileBody_ok code).2⟩

theorem covers (segmented : program.Segmented types compiled segments) {address : Nat}
    (inside : address < compiled.code.size) : ∃ segment ∈ segments, segment.Contains address := by
  apply segmented.adjoin.covers (Nat.zero_le address)
  rwa [← segmented.whole, Nat.zero_add, Array.length_toList]

theorem stop_le (segmented : program.Segmented types compiled segments)
    (member : segment ∈ segments) : segment.stop ≤ compiled.code.size := by
  obtain ⟨context, body, code⟩ := segmented.bodyCode member
  have nonempty : segment.code.toList ≠ [] := by
    rw [code, BodyContext.bodyCode]
    simp
  have reach := (segmented.holds member).length_le nonempty
  rwa [Array.length_toList] at reach

/-- The instruction at an address of a segment. -/
theorem fetch (segmented : program.Segmented types compiled segments)
    (member : segment ∈ segments) {index : Nat} (inside : index < segment.code.size) :
    compiled.code[segment.start + index]? = segment.code.toList[index]? := by
  have present := List.getElem?_eq_getElem (Array.length_toList ▸ inside)
  rw [present]
  exact segmented.holds member index _ present

end Program.Segmented

end StackLang
