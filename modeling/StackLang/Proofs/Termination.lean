import StackLang.Proofs.ProgramRun

/-!
# Compiled programs terminate

The code of an accepted program has no backward jumps, so a call carries out each instruction of its
body at most once, and calls nest no deeper than allowed. The number of steps of a run is therefore
bounded by the size of the code and the depth of calls, whatever the program computes.
-/

namespace StackLang.Machine

/-- Every run of an accepted program ends, and no phase of it takes more steps than a number that
depends on the code and the depth of calls only. -/
theorem execute_terminates {program : Program} {compiled : CompiledProgram}
    (accepted : program.compile = .ok compiled) (addressable : compiled.Addressable)
    (settings : Settings) (prior : State) :
    (∃ ending, ∀ fuel, stepBound compiled settings.maxCallDepth ≤ fuel →
      execute compiled settings fuel prior = some ending) ∧
    ∀ begun count state, Begins compiled settings prior begun →
      advance compiled settings count begun = some state →
      count ≤ stepBound compiled settings.maxCallDepth := by
  obtain ⟨types, placed⟩ := Program.placed_of_compile accepted
  let session : Session :=
    ⟨program, types, compiled, settings, prior.stack.limit, placed, addressable⟩
  constructor
  · obtain ⟨ending, ended, _⟩ := @session.execute_concludes prior rfl
    exact ⟨ending, ended⟩
  · intro begun count state begins advanced
    obtain ⟨total, result, bounded, walk, left⟩ := @session.phase_walks prior begun rfl begins
    have within : count ≤ total := by
      rcases walk.advance_cases (fun final arrived => (left final arrived).1) advanced with
        earlier | ⟨same, _⟩
      · exact Nat.le_of_lt earlier
      · exact Nat.le_of_eq same
    exact Nat.le_trans within bounded

/-- A program whose start function calls itself without end. -/
def endless : Program where
  items := [
    .function {
      name := "main"
      returnType := "void"
      parameters := []
      body := [.expression (.call "main" []), .expression (.call "main" [])] }]

/-- Even the runs of `endless` end. -/
theorem endless_terminates :
    ∃ compiled, endless.compile = .ok compiled ∧ compiled.Addressable ∧
      ∀ (settings : Settings) (prior : State),
        (∃ ending, ∀ fuel, stepBound compiled settings.maxCallDepth ≤ fuel →
          execute compiled settings fuel prior = some ending) ∧
        ∀ begun count state, Begins compiled settings prior begun →
          advance compiled settings count begun = some state →
          count ≤ stepBound compiled settings.maxCallDepth := by
  have accepted : endless.compile = .ok _ := rfl
  exact ⟨_, accepted, by decide, execute_terminates accepted (by decide)⟩

end StackLang.Machine
