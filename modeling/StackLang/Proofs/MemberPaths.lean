import Mathlib.Logic.Relation
import StackLang.Proofs.WellFormed

/-!
# Member paths

A chain of member accesses is put together from its root outwards and taken apart from the last
access inwards. `Expr.chain` and `Expr.path` are inverse to each other (`path_eq_ok_iff`), and what
has no path is exactly what is not built on a variable (`path_eq_error_iff`). Taking a chain apart
in one walk inwards, which meets the members in reverse and turns them round at the root, finds the
same path (`walk_eq`).
-/

namespace StackLang.Expr

open Relation

/-- An expression is an access to a member of an object. -/
def HasObject (expr object : Expr) : Prop :=
  ∃ name, expr = .member object name

/-- The first expression that is no member access, from an expression on from object to object. -/
structure HasBase (expr base : Expr) : Prop where
  reached : ReflTransGen HasObject expr base
  stops : ∀ object, ¬ base.HasObject object

/-- The walk from an expression inwards, with the members that it has passed, until it comes to the
root. -/
def walk : Expr → Array String → Except Expr (String × List String)
  | .identifier root, passed => .ok (root, passed.reverse.toList)
  | .member object name, passed => object.walk (passed.push name)
  | other, _ => .error other

variable {expr object node : Expr} {root name : String} {members : List String}

theorem exists_member_of_chain (root : String) (nonempty : members ≠ []) :
    ∃ object name, chain root members = .member object name := by
  rw [← List.dropLast_concat_getLast nonempty, chain_concat]
  exact ⟨_, _, rfl⟩

/-- What is a chain and a member access at once has been put together from some member. -/
theorem ne_nil_of_chain_eq_member (chained : Expr.member object name = chain root members) :
    members ≠ [] := by
  rintro rfl
  cases chained

theorem hasObject_member_iff {other : Expr} :
    (Expr.member object name).HasObject other ↔ other = object := by
  constructor
  · rintro ⟨_, same⟩
    cases same
    rfl
  · rintro rfl
    exact ⟨name, rfl⟩

namespace HasBase

/-- What is no member access is built on itself. -/
theorem iff_eq (isOther : ∀ object name, expr ≠ .member object name) :
    expr.HasBase node ↔ node = expr := by
  have stops : ∀ object, ¬ expr.HasObject object := by
    rintro object ⟨name, same⟩
    exact isOther object name same
  constructor
  · rintro ⟨reached, -⟩
    rcases reached.cases_head with same | ⟨object, first, -⟩
    · exact same.symm
    · exact absurd first (stops object)
  · rintro rfl
    exact ⟨.refl, stops⟩

/-- A member access is built on whatever its object is built on. -/
theorem member_iff : (Expr.member object name).HasBase node ↔ object.HasBase node := by
  constructor
  · rintro ⟨reached, stops⟩
    rcases reached.cases_head with rfl | ⟨other, first, later⟩
    · exact absurd ⟨name, rfl⟩ (stops object)
    · rw [hasObject_member_iff] at first
      exact ⟨first ▸ later, stops⟩
  · rintro ⟨reached, stops⟩
    exact ⟨.head ⟨name, rfl⟩ reached, stops⟩

end HasBase

/-- An expression has no path exactly if it is built on something else than a variable. -/
theorem path_eq_error_iff :
    expr.path = .error node ↔ expr.HasBase node ∧ ∀ root, node ≠ .identifier root := by
  induction expr using Expr.induction with
  | identifier name =>
    rw [HasBase.iff_eq fun _ _ => Expr.noConfusion]
    constructor
    · intro failed
      cases failed
    · rintro ⟨rfl, isOther⟩
      exact absurd rfl (isOther name)
  | member object name objectHypothesis =>
    rw [HasBase.member_iff]
    refine Iff.trans ?_ objectHypothesis
    rw [path]
    cases object.path with
    | ok found => simp
    | error other => simp
  | literal | binary | call =>
    rw [HasBase.iff_eq fun _ _ => Expr.noConfusion]
    constructor
    · intro failed
      cases failed
      exact ⟨rfl, fun _ => Expr.noConfusion⟩
    · rintro ⟨rfl, -⟩
      rfl

/-- The walk finds the members of the path behind those that it has passed, turned round. -/
theorem walk_eq (expr : Expr) (passed : Array String) :
    expr.walk passed =
      expr.path.map fun found => (found.1, found.2 ++ passed.reverse.toList) := by
  induction expr using Expr.induction generalizing passed with
  | identifier name => simp [walk, path, Except.map]
  | member object name objectHypothesis =>
    rw [walk, path, objectHypothesis]
    cases object.path with
    | ok found => simp [Except.map]
    | error node => rfl
  | literal | binary | call => rfl

/-- A chain with members is a member access whose path is what the chain was put together from, and
a member access with a path is the chain of it. The others are built on something that is no
variable, and this is the expression that they fail with. A walk inwards that collects the members,
the last access first, comes to the same. -/
theorem member_paths_round_trip :
    (∀ root members, members ≠ [] → ∃ object name, chain root members = .member object name ∧
      (Expr.member object name).path = .ok (root, members)) ∧
    (∀ object name root members, (Expr.member object name).path = .ok (root, members) →
      members ≠ [] ∧ Expr.member object name = chain root members) ∧
    (∀ object name node, (Expr.member object name).path = .error node ↔
      (Expr.member object name).HasBase node ∧ ∀ root, node ≠ .identifier root) ∧
    ∀ object name, object.walk #[name] = (Expr.member object name).path := by
  refine ⟨?_, ?_, fun _ _ _ => path_eq_error_iff, ?_⟩
  · intro root members nonempty
    obtain ⟨object, name, isMember⟩ := exists_member_of_chain root nonempty
    exact ⟨object, name, isMember, path_eq_ok_iff.mpr isMember.symm⟩
  · intro object name root members found
    have chained := path_eq_ok_iff.mp found
    exact ⟨ne_nil_of_chain_eq_member chained, chained⟩
  · intro object name
    rw [walk_eq, path]
    cases object.path <;> rfl

/-- Members are listed in the order of access, and what is accessed on a call fails with the
call. -/
theorem segment_round_trips :
    (∃ object name, chain "segment" ["start", "x"] = .member object name ∧
      (Expr.member object name).path = .ok ("segment", ["start", "x"])) ∧
    (Expr.member (.member (.call "origin" []) "start") "x").path = .error (.call "origin" []) ∧
    (Expr.member (.member (.call "origin" []) "start") "x").HasBase (.call "origin" []) := by
  obtain ⟨chained, -, failed, -⟩ := member_paths_round_trip
  have onCall : (Expr.member (.member (.call "origin" []) "start") "x").path =
      .error (.call "origin" []) := rfl
  exact ⟨chained "segment" ["start", "x"] (List.cons_ne_nil _ _), onCall,
    ((failed _ _ _).mp onCall).1⟩

end StackLang.Expr
