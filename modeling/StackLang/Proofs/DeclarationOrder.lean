import StackLang.Proofs.Acceptance
import StackLang.Proofs.CompilerCorrectness
import StackLang.Proofs.FrameTables
import StackLang.Proofs.Prototypes

/-!
# The order of declarations does not matter

`Program.Rearranged` says that two programs have the same items in another order, but the global
statements, the functions with one name and the structs with one name in the same order. Such
programs find the same declarations under every name and have the same struct types, so they are
accepted together. Their code lies elsewhere, but it means the same: both runs end as one evaluation
does.
-/

namespace StackLang

/-- The last declaration of each name is the same if the declarations of each name are. -/
theorem Bindings.ofList_map_congr {α : Type} {nameOf : α → String} {declarations others : List α}
    (same : ∀ name, declarations.filter (fun declaration => nameOf declaration == name) =
      others.filter fun declaration => nameOf declaration == name) :
    ofList (declarations.map fun declaration => (nameOf declaration, declaration)) =
      ofList (others.map fun declaration => (nameOf declaration, declaration)) := by
  refine Bindings.ext fun name => ?_
  rw [find?_ofList_map, find?_ofList_map, ← List.head?_filter, ← List.head?_filter,
    List.filter_reverse, List.filter_reverse, same]

namespace Program

variable {program other : Program}

/-- The same items in another order, in which nothing passes what it is told apart from by its
place: a global statement no other, and a declaration none with the same name. -/
structure Rearranged (program other : Program) : Prop where
  items : program.items.Perm other.items
  globals : program.globalStatements = other.globalStatements
  functions : ∀ name,
    program.functionDecls.filter (fun declaration => declaration.name == name) =
      other.functionDecls.filter fun declaration => declaration.name == name
  structs : ∀ name,
    program.structDecls.filter (fun declaration => declaration.name == name) =
      other.structDecls.filter fun declaration => declaration.name == name

namespace Rearranged

theorem symm (rearranged : program.Rearranged other) : other.Rearranged program where
  items := rearranged.items.symm
  globals := rearranged.globals.symm
  functions := fun name => (rearranged.functions name).symm
  structs := fun name => (rearranged.structs name).symm

theorem functions_eq (rearranged : program.Rearranged other) :
    program.functions = other.functions :=
  Bindings.ofList_map_congr rearranged.functions

theorem structs_eq (rearranged : program.Rearranged other) : program.structs = other.structs :=
  Bindings.ofList_map_congr rearranged.structs

theorem mem_functionDecls (rearranged : program.Rearranged other) {function : FunctionDecl} :
    function ∈ program.functionDecls ↔ function ∈ other.functionDecls :=
  (rearranged.items.filterMap _).mem_iff

end Rearranged

theorem StructsResolve.congr (same : program.structs = other.structs)
    (resolve : program.StructsResolve) : other.StructsResolve := by
  have found : program.struct? = other.struct? := by
    funext name
    rw [struct?, struct?, same]
  have resolves : program.Resolves = other.Resolves := by
    funext type
    rw [Resolves, Resolves, found]
  have contains : program.Contains = other.Contains := by
    funext outer inner
    rw [Contains, Contains, found]
  obtain ⟨known, acyclic⟩ := resolve
  rw [found, resolves] at known
  rw [contains] at acyclic
  exact ⟨known, acyclic⟩

/-- Rearranged programs have the same struct types. -/
theorem Rearranged.ofProgram_eq (rearranged : program.Rearranged other) {types : StructTypes}
    (succeeded : StructTypes.ofProgram program = .ok types) :
    StructTypes.ofProgram other = .ok types := by
  have resolve := StructTypes.ofProgram_ok_iff.mp ⟨types, succeeded⟩
  obtain ⟨otherTypes, otherSucceeded⟩ :=
    StructTypes.ofProgram_ok_iff.mpr (resolve.congr rearranged.structs_eq)
  rw [StructTypes.ofProgram_unique rearranged.structs_eq succeeded otherSucceeded]
  exact otherSucceeded

/-- A program is accepted if it can be rearranged into one that is. -/
theorem Rearranged.accepted (rearranged : program.Rearranged other)
    (accepted : ∃ compiled, program.compile = .ok compiled) :
    ∃ compiled, other.compile = .ok compiled := by
  obtain ⟨types, resolved, placed, globals⟩ := compile_ok_iff.mp accepted
  have compiles := Layout.placeAll_ok_iff.mp placed
  refine compile_ok_iff.mpr ⟨types, rearranged.ofProgram_eq resolved, ?_, ?_⟩
  · rw [Layout.placeAll_ok_iff]
    intro function member
    rw [← rearranged.functions_eq]
    exact compiles function (rearranged.mem_functionDecls.mpr member)
  · rw [← rearranged.functions_eq, ← rearranged.globals]
    exact globals

end Program

namespace Machine

open Semantics

/-- Two runs ended alike: with the same outcome, the same global variables and the same active
calls. -/
structure Ending.Alike (ending other : Ending) : Prop where
  outcome_eq : ending.outcome = other.outcome
  globals_eq : ending.state.scopes.table? .global = other.state.scopes.table? .global
  backtrace_eq : ending.state.calls.backtrace = other.state.calls.backtrace

theorem Ending.Agrees.alike {ending other : Ending}
    {result : EStateM.Result Fault Store (Option Value)} (agrees : ending.Agrees result)
    (otherAgrees : other.Agrees result) : ending.Alike other := by
  cases result with
  | ok value store =>
    obtain ⟨outcome, globals, backtrace⟩ := agrees
    obtain ⟨otherOutcome, otherGlobals, otherBacktrace⟩ := otherAgrees
    exact ⟨outcome.trans otherOutcome.symm, globals.trans otherGlobals.symm,
      backtrace.trans otherBacktrace.symm⟩
  | error fault store =>
    obtain ⟨outcome, globals, backtrace⟩ := agrees
    obtain ⟨otherOutcome, otherGlobals, otherBacktrace⟩ := otherAgrees
    exact ⟨outcome.trans otherOutcome.symm, globals.trans otherGlobals.symm,
      backtrace.trans otherBacktrace.symm⟩

/-- An evaluation asks for the declarations by their names only. -/
theorem evalProgram_rearranged {program other : Program} (rearranged : program.Rearranged other)
    (types : StructTypes) (settings : Settings) (limit : Nat) :
    Bounded.evalProgram program types settings limit =
      Bounded.evalProgram other types settings limit := by
  unfold Bounded.evalProgram
  rw [rearranged.functions_eq, rearranged.globals]

/-- Programs that differ only in the order of declarations are accepted together, and then all their
runs end, and end alike. -/
theorem declaration_order_is_irrelevant {program other : Program}
    (rearranged : program.Rearranged other) :
    ((∃ compiled, program.compile = .ok compiled) ↔ ∃ compiled, other.compile = .ok compiled) ∧
    ∀ compiled otherCompiled, program.compile = .ok compiled → other.compile = .ok otherCompiled →
      compiled.Addressable → otherCompiled.Addressable →
      ∀ settings prior otherPrior, Rested compiled settings prior →
        Rested otherCompiled settings otherPrior →
        ∃ ending otherEnding,
          (∀ fuel, stepBound compiled settings.maxCallDepth ≤ fuel →
            execute compiled settings fuel prior = some ending) ∧
          (∀ fuel, stepBound otherCompiled settings.maxCallDepth ≤ fuel →
            execute otherCompiled settings fuel otherPrior = some otherEnding) ∧
          ending.Alike otherEnding := by
  refine ⟨⟨rearranged.accepted, rearranged.symm.accepted⟩, ?_⟩
  intro compiled otherCompiled accepted otherAccepted addressable otherAddressable settings prior
    otherPrior rested otherRested
  obtain ⟨types, placed⟩ := Program.placed_of_compile accepted
  obtain ⟨otherTypes, otherPlaced⟩ := Program.placed_of_compile otherAccepted
  obtain rfl : types = otherTypes :=
    StructTypes.ofProgram_unique rearranged.structs_eq placed.resolved otherPlaced.resolved
  let session : Session :=
    ⟨program, types, compiled, settings, settings.maxStackSize, placed, addressable⟩
  let otherSession : Session :=
    ⟨other, types, otherCompiled, settings, settings.maxStackSize, otherPlaced, otherAddressable⟩
  obtain ⟨ending, ended, concludes⟩ := session.execute_concludes rested.limit_eq
  obtain ⟨otherEnding, otherEnded, otherConcludes⟩ :=
    otherSession.execute_concludes otherRested.limit_eq
  have evaluated : Bounded.evalProgram program types settings settings.maxStackSize =
      Bounded.evalProgram other types settings settings.maxStackSize :=
    evalProgram_rearranged rearranged types settings _
  have agrees : ending.Agrees
      (Bounded.evalProgram program types settings settings.maxStackSize {}) := concludes.agrees
  rw [evaluated] at agrees
  exact ⟨ending, otherEnding, ended, otherEnded, agrees.alike otherConcludes.agrees⟩

/-- The items of a program in which structs, functions and global statements refer to one another,
one function is declared twice, and there is a variable of a struct that contains another. -/
def intertwinedPart : Nat → Item
  | 0 => .struct ⟨"Outer", [⟨"Inner", "inner"⟩, ⟨"Bool", "flag"⟩]⟩
  | 1 => .struct ⟨"Inner", [⟨"Int", "count"⟩]⟩
  | 2 => .global (.declaration "Outer" "held" none)
  | 3 => .global (.assignment (.member (.member (.identifier "held") "inner") "count")
      (.call "amount" []))
  | 4 => .function ⟨"amount", "Int", [], [.returning (some (.literal (.int 1)))]⟩
  | 5 => .function ⟨"amount", "Int", [], [.returning (some (.literal (.int 2)))]⟩
  | _ => .function ⟨"main", "Int", [], [.returning (some
      (.member (.member (.identifier "held") "inner") "count"))]⟩

/-- Functions first, and the inner struct before the outer one. -/
def functionsFirst : Program := ⟨[4, 6, 5, 1, 2, 0, 3].map intertwinedPart⟩

/-- Functions last, and the outer struct before the inner one. -/
def functionsLast : Program := ⟨[0, 2, 1, 3, 4, 5, 6].map intertwinedPart⟩

/-- A struct of the inner type of both. -/
def innerRecord : Record := .ofList [("count", .int 0)]

/-- The struct types of both. -/
def intertwinedTypes : StructTypes :=
  ⟨.ofList [("Inner", innerRecord),
    ("Outer", .ofList [("inner", .struct innerRecord), ("flag", .bool false)])]⟩

theorem functionsFirst_rearranged : functionsFirst.Rearranged functionsLast where
  items := (by decide : [4, 6, 5, 1, 2, 0, 3].Perm [0, 2, 1, 3, 4, 5, 6]).map intertwinedPart
  globals := rfl
  functions := by
    intro name
    by_cases start : "main" = name
    · subst start
      rfl
    · simp [functionsFirst, functionsLast, Program.functionDecls, intertwinedPart,
        List.filter_cons, start]
  structs := by
    intro name
    by_cases outer : "Outer" = name
    · subst outer
      rfl
    · simp [functionsFirst, functionsLast, Program.structDecls, intertwinedPart,
        List.filter_cons, outer]

open StructTypes in
theorem functionsFirst_types : ofProgram functionsFirst = .ok intertwinedTypes := by
  have inner : build functionsFirst.structs ⟨"Inner", [⟨"Int", "count"⟩]⟩ {} =
      .ok (.ofList [("Inner", innerRecord)]) := by
    unfold build
    rw [fillIn_kind rfl, fillIn]
    rfl
  have outer : build functionsFirst.structs ⟨"Outer", [⟨"Inner", "inner"⟩, ⟨"Bool", "flag"⟩]⟩
      (.ofList [("Inner", innerRecord)]) = .ok intertwinedTypes.prototypes := by
    unfold build
    rw [fillIn_kept rfl rfl, fillIn_kind rfl, fillIn]
    rfl
  have latest_eq : latest functionsFirst = [⟨"Inner", [⟨"Int", "count"⟩]⟩,
      ⟨"Outer", [⟨"Inner", "inner"⟩, ⟨"Bool", "flag"⟩]⟩] := rfl
  unfold latest at latest_eq
  simp only [ofProgram, latest_eq, buildAll, inner, outer]

theorem functionsFirst_compiles : ∃ compiled, functionsFirst.compile = .ok compiled ∧
    compiled.Addressable ∧
    (compiled.functions.find? entryPoint).map FunctionEntry.address = some 3 := by
  unfold Program.compile Program.compilation
  rw [functionsFirst_types]
  exact ⟨_, rfl, by decide +kernel, by decide +kernel⟩

theorem functionsLast_compiles : ∃ compiled, functionsLast.compile = .ok compiled ∧
    compiled.Addressable ∧
    (compiled.functions.find? entryPoint).map FunctionEntry.address = some 6 := by
  unfold Program.compile Program.compilation
  rw [functionsFirst_rearranged.ofProgram_eq functionsFirst_types]
  exact ⟨_, rfl, by decide +kernel, by decide +kernel⟩

/-- Both arrangements are compiled, to code with the start function at different addresses, and
every run of the one ends as the same run of the other does. -/
theorem intertwined_order_is_irrelevant :
    ∃ compiled otherCompiled, functionsFirst.compile = .ok compiled ∧
      functionsLast.compile = .ok otherCompiled ∧
      (compiled.functions.find? entryPoint).map FunctionEntry.address ≠
        (otherCompiled.functions.find? entryPoint).map FunctionEntry.address ∧
      ∀ settings, ∃ fuel ending otherEnding,
        execute compiled settings fuel (.initial settings) = some ending ∧
        execute otherCompiled settings fuel (.initial settings) = some otherEnding ∧
        ending.Alike otherEnding := by
  obtain ⟨compiled, accepted, addressable, address⟩ := functionsFirst_compiles
  obtain ⟨otherCompiled, otherAccepted, otherAddressable, otherAddress⟩ := functionsLast_compiles
  refine ⟨compiled, otherCompiled, accepted, otherAccepted, ?_, fun settings => ?_⟩
  · rw [address, otherAddress]
    decide
  · obtain ⟨ending, otherEnding, ended, otherEnded, alike⟩ :=
      (declaration_order_is_irrelevant functionsFirst_rearranged).2 compiled otherCompiled accepted
        otherAccepted addressable otherAddressable settings _ _ .fresh .fresh
    exact ⟨_, ending, otherEnding, ended _ (Nat.le_max_left _ _),
      otherEnded _ (Nat.le_max_right _ _), alike⟩

end Machine

end StackLang
