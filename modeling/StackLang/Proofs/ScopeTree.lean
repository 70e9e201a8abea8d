import StackLang.Proofs.NameLookup

/-!
# Trees of scopes

Symbol tables are created, released and written in any order, from a new global table. As long as no
table is created below a place without one, every table comes after its parent (`IsTree`), whatever
else is done: operations preserve it one by one (`IsTree.apply`), and so do sequences of them
(`Built.isTree`). In a tree each place has a chain of tables up to the global one, a name is
resolved to its first binding there, a write changes one binding and no table goes before its
children.

A table that is created below a place without one breaks the tree: the place may be its own, and
then a search that comes to it never ends. In a tree every search ends, at the latest when it has
looked at each table once (`IsTree.exists_looks`).
-/

namespace StackLang.Scopes

/-- An operation on symbol tables. -/
inductive Operation where
  | createChild (parent : ScopeId)
  | release (scope : ScopeId)
  | define (scope : ScopeId) (name : String) (value : Value)
  | assign (scope : ScopeId) (name : String) (value : Value)

namespace Operation

/-- The place that an operation is given. -/
def place : Operation → ScopeId
  | .createChild parent => parent
  | .release scope | .define scope _ _ | .assign scope _ _ => scope

/-- The places that an operation gives out. -/
def issues (scopes : Scopes) : Operation → List ScopeId
  | .createChild _ => [scopes.nextId]
  | .release _ | .define _ _ _ | .assign _ _ _ => []

/-- The tables after an operation. An assignment that fails changes nothing. Nothing comes after one
that never ends, which is taken to change nothing either. -/
def apply (scopes : Scopes) : Operation → Scopes
  | .createChild parent => scopes.createChild parent
  | .release scope => scopes.release scope
  | .define scope name value => scopes.define scope name value
  | .assign scope name value =>
    match scopes.assign scope name value with
    | some (.ok assigned) => assigned
    | _ => scopes

/-- Tables are created below live tables only. -/
def BelowLive (scopes : Scopes) : Operation → Prop
  | .createChild parent => scopes.isLive parent = true
  | .release _ | .define _ _ _ | .assign _ _ _ => True

/-- Tables are created below live tables and names are defined in live tables. -/
def OnLive (scopes : Scopes) (_ : List ScopeId) : Operation → Prop
  | .createChild parent => scopes.isLive parent = true
  | .define scope _ _ => scopes.isLive scope = true
  | .release _ | .assign _ _ _ => True

/-- The place of an operation has been given out before, and may have been released since. -/
def OnIssued (_ : Scopes) (issued : List ScopeId) (operation : Operation) : Prop :=
  operation.place ∈ issued

instance (scopes : Scopes) (issued : List ScopeId) (operation : Operation) :
    Decidable (operation.OnIssued scopes issued) :=
  inferInstanceAs (Decidable (operation.place ∈ issued))

/-- The place of an operation has been given out before, and tables are created below live ones. -/
def IsCareful (scopes : Scopes) (issued : List ScopeId) (operation : Operation) : Prop :=
  operation.OnIssued scopes issued ∧ operation.BelowLive scopes

end Operation

/-- Tables that operations lead to from a new global table, with the places given out on the way,
the last one first. `Allowed` says which operations may come next. -/
inductive Built (Allowed : Scopes → List ScopeId → Operation → Prop) :
    Scopes → List ScopeId → Prop where
  | new : Built Allowed {} [.global]
  | next {scopes : Scopes} {issued : List ScopeId} {operation : Operation}
      (earlier : Built Allowed scopes issued) (allowed : Allowed scopes issued operation) :
      Built Allowed (operation.apply scopes) (operation.issues scopes ++ issued)

/-- The global table has no parent, and every other table comes after its parent. -/
structure IsTree (scopes : Scopes) : Prop where
  global : scopes.parent? .global = some none
  parents : ∀ scope, scope ≠ .global → scopes.isLive scope = true →
    ∃ parent : ScopeId, parent.index < scope.index ∧ scopes.parent? scope = some (some parent)

/-- The tables on the way from a place through parents. -/
inductive Chain (scopes : Scopes) : ScopeId → List ScopeId → Prop where
  | nowhere {scope : ScopeId} (dead : scopes.parent? scope = none) : Chain scopes scope []
  | top {scope : ScopeId} (root : scopes.parent? scope = some none) : Chain scopes scope [scope]
  | upward {scope parent : ScopeId} {chain : List ScopeId}
      (up : scopes.parent? scope = some (some parent)) (above : Chain scopes parent chain) :
      Chain scopes scope (scope :: chain)

/-- The first table on the way from a place that binds a name. -/
def Nearest (scopes : Scopes) (scope : ScopeId) (name : String) (place : ScopeId) : Prop :=
  ∃ chain, scopes.Chain scope chain ∧
    chain.find? (fun other => (scopes.local? other name).isSome) = some place

/-- One binding has been made or replaced. Of all look-ups only those change that come to it
first. -/
structure Rebound (scopes : Scopes) (place : ScopeId) (name : String) (value : Value)
    (after : Scopes) : Prop where
  parents : ∀ other, after.parent? other = scopes.parent? other
  bindings : ∀ other otherName, after.local? other otherName =
    if other = place ∧ otherName = name then some value else scopes.local? other otherName
  changed : ∀ scope, after.Nearest scope name place →
    after.resolve scope name = some (.ok value)
  unchanged : ∀ scope otherName, ¬ (otherName = name ∧ after.Nearest scope name place) →
    after.resolve scope otherName = scopes.resolve scope otherName

variable {scopes after : Scopes} {scope place : ScopeId} {name : String} {value : Value}

theorem isLive_iff_parent? : scopes.isLive scope = true ↔ (scopes.parent? scope).isSome = true := by
  rw [isLive_iff_table?, parent?, Option.isSome_map, Option.isSome_iff_exists]

theorem parent?_createChild (scopes : Scopes) (parent other : ScopeId) :
    (scopes.createChild parent).parent? other =
      if other = scopes.nextId then some (some parent) else scopes.parent? other := by
  obtain ⟨index⟩ := other
  simp only [parent?, createChild, table?, Array.getElem?_push, nextId, size, ScopeId.mk.injEq]
  split <;> rfl

theorem parent?_release_newest (isLocal : scope ≠ .global) (newest : scope.index + 1 = scopes.size)
    (other : ScopeId) :
    (scopes.release scope).parent? other =
      if other = scope then none else scopes.parent? other := by
  rw [release_newest isLocal newest]
  obtain ⟨index⟩ := scope
  obtain ⟨otherIndex⟩ := other
  simp only [size] at newest
  simp only [parent?, table?, Array.getElem?_pop, ScopeId.mk.injEq]
  by_cases same : otherIndex = index
  · rw [if_pos same, if_neg (by omega), Option.map_none]
  · rw [if_neg same]
    split
    · rfl
    · rw [Array.getElem?_eq_none (by omega)]

theorem release_other (kept : scope = .global ∨ scope.index + 1 ≠ scopes.size) :
    scopes.release scope = scopes := by
  rw [release, if_neg]
  rintro ⟨isLocal, newest⟩
  rcases kept with isGlobal | older
  · exact isLocal isGlobal
  · exact older newest

/-- An assignment that succeeds is a definition in the nearest table that binds the name. -/
theorem assign_eq_ok_iff : scopes.assign scope name value = some (.ok after) ↔
    ∃ place, scopes.owner? scope name = some (some place) ∧
      after = scopes.define place name value := by
  unfold assign
  cases scopes.owner? scope name with
  | none => simp
  | some result =>
    cases result with
    | none => simp
    | some place => simp [eq_comm]

theorem assign_eq_error_iff {cause : RunError} :
    scopes.assign scope name value = some (.error cause) ↔
      scopes.owner? scope name = some none ∧ cause = .undefinedVariable name := by
  unfold assign
  cases scopes.owner? scope name with
  | none => simp
  | some result =>
    cases result with
    | none => simp [eq_comm]
    | some place => simp

namespace IsTree

theorem new : IsTree {} where
  global := rfl
  parents := by
    rintro ⟨index⟩ isLocal live
    have inside : index < 1 := isLive_iff.mp live
    have isGlobal : index = 0 := by omega
    exact absurd (congrArg ScopeId.mk isGlobal) isLocal

/-- Whether tables form a tree depends on their parents only. -/
theorem transfer (tree : scopes.IsTree)
    (parents : ∀ other, after.parent? other = scopes.parent? other) : after.IsTree where
  global := (parents .global).trans tree.global
  parents := by
    intro scope isLocal live
    rw [isLive_iff_parent?, parents, ← isLive_iff_parent?] at live
    rw [parents]
    exact tree.parents scope isLocal live

theorem createChild (tree : scopes.IsTree) {parent : ScopeId} (live : scopes.isLive parent = true) :
    (scopes.createChild parent).IsTree where
  global := by
    have older : ScopeId.global ≠ scopes.nextId := by
      have occupied := isLive_iff.mp (isLive_iff_parent?.mpr (Option.isSome_of_eq_some tree.global))
      intro same
      have index_eq : 0 = scopes.size := congrArg ScopeId.index same
      exact absurd (index_eq ▸ occupied) (Nat.lt_irrefl _)
    rw [parent?_createChild, if_neg older, tree.global]
  parents := by
    intro scope isLocal liveAfter
    rw [parent?_createChild]
    by_cases newest : scope = scopes.nextId
    · rw [if_pos newest]
      refine ⟨parent, ?_, rfl⟩
      rw [newest]
      exact isLive_iff.mp live
    · rw [if_neg newest]
      rw [isLive_iff_parent?, parent?_createChild, if_neg newest, ← isLive_iff_parent?] at liveAfter
      exact tree.parents scope isLocal liveAfter

theorem release (tree : scopes.IsTree) (scope : ScopeId) : (scopes.release scope).IsTree := by
  by_cases newest : scope ≠ .global ∧ scope.index + 1 = scopes.size
  · obtain ⟨isLocal, newest⟩ := newest
    constructor
    · rw [parent?_release_newest isLocal newest, if_neg isLocal.symm, tree.global]
    · intro other otherLocal live
      rw [isLive_iff_parent?, parent?_release_newest isLocal newest] at live
      rw [parent?_release_newest isLocal newest]
      split at live
      · cases live
      · next different =>
        rw [if_neg different]
        exact tree.parents other otherLocal (isLive_iff_parent?.mpr live)
  · rw [release_other (by rwa [not_and_or, not_ne_iff] at newest)]
    exact tree

/-- Operations preserve trees, as long as tables are created below live ones. -/
theorem apply (tree : scopes.IsTree) {operation : Operation} (sound : operation.BelowLive scopes) :
    (operation.apply scopes).IsTree := by
  cases operation with
  | createChild parent => exact tree.createChild sound
  | release scope => exact tree.release scope
  | define scope name value =>
    exact tree.transfer fun other => parent?_define scopes scope other name value
  | assign scope name value =>
    simp only [Operation.apply]
    split
    · next assigned succeeded =>
      obtain ⟨place, -, rfl⟩ := assign_eq_ok_iff.mp succeeded
      exact tree.transfer fun other => parent?_define scopes place other name value
    · exact tree

end IsTree

/-- Sequences of operations lead to trees, as long as tables are created below live ones. -/
theorem Built.isTree {Allowed : Scopes → List ScopeId → Operation → Prop} {issued : List ScopeId}
    (built : Built Allowed scopes issued)
    (sound : ∀ scopes issued operation, Allowed scopes issued operation →
      operation.BelowLive scopes) : scopes.IsTree := by
  induction built with
  | new => exact .new
  | next _ allowed inductionHypothesis =>
    exact inductionHypothesis.apply (sound _ _ _ allowed)

/-- A search along a chain ends at the first table of the chain that binds the name. -/
theorem Chain.looks {chain : List ScopeId} (way : scopes.Chain scope chain) (name : String) :
    ∃ visited, Looks scopes name scope visited
      (chain.find? fun other => (scopes.local? other name).isSome) := by
  induction way with
  | nowhere dead => exact ⟨[], .nowhere (Option.map_eq_none_iff.mp dead)⟩
  | top root =>
    obtain ⟨table, live, root⟩ := Option.map_eq_some_iff.mp root
    rw [List.find?_cons, isSome_local? live, List.find?_nil]
    cases bound : table.bindings.contains name with
    | true => exact ⟨_, .here live bound⟩
    | false => exact ⟨_, .top live bound root⟩
  | upward up above inductionHypothesis =>
    obtain ⟨table, live, up⟩ := Option.map_eq_some_iff.mp up
    obtain ⟨visited, looks⟩ := inductionHypothesis
    rw [List.find?_cons, isSome_local? live]
    cases bound : table.bindings.contains name with
    | true => exact ⟨_, .here live bound⟩
    | false => exact ⟨_, .upward live bound up looks⟩

theorem Nearest.owner?_eq (nearest : scopes.Nearest scope name place) :
    scopes.owner? scope name = some (some place) := by
  obtain ⟨chain, way, found⟩ := nearest
  obtain ⟨visited, looks⟩ := way.looks name
  exact looks.owner?_eq.trans (congrArg some found)

namespace IsTree

theorem parent_lt (tree : scopes.IsTree) {parent : ScopeId}
    (up : scopes.parent? scope = some (some parent)) : parent.index < scope.index := by
  have isLocal : scope ≠ .global := by
    rintro rfl
    rw [tree.global] at up
    cases up
  have live : scopes.isLive scope = true := isLive_iff_parent?.mpr (Option.isSome_of_eq_some up)
  obtain ⟨other, before, parent_eq⟩ := tree.parents scope isLocal live
  rw [up, Option.some_inj, Option.some_inj] at parent_eq
  rwa [parent_eq]

/-- From a live table the chain leads up to the global one. -/
theorem chain_of_live (tree : scopes.IsTree) (live : scopes.isLive scope = true) :
    ∃ chain, scopes.Chain scope chain ∧ chain.head? = some scope ∧
      chain.getLast? = some .global := by
  induction index : scope.index using Nat.strongRecOn generalizing scope with
  | ind index inductionHypothesis =>
    subst index
    by_cases isGlobal : scope = .global
    · subst isGlobal
      exact ⟨[.global], .top tree.global, rfl, rfl⟩
    · obtain ⟨parent, before, up⟩ := tree.parents scope isGlobal live
      have parentLive : scopes.isLive parent = true := by
        rw [isLive_iff] at live ⊢
        omega
      obtain ⟨chain, above, -, last⟩ :=
        inductionHypothesis parent.index before parentLive rfl
      refine ⟨scope :: chain, .upward up above, rfl, ?_⟩
      rw [List.getLast?_cons, last, Option.getD_some]

theorem exists_chain (tree : scopes.IsTree) (scope : ScopeId) :
    ∃ chain, scopes.Chain scope chain := by
  by_cases live : scopes.isLive scope = true
  · obtain ⟨chain, way, -⟩ := tree.chain_of_live live
    exact ⟨chain, way⟩
  · rw [isLive_iff_parent?, Option.not_isSome_iff_eq_none] at live
    exact ⟨[], .nowhere live⟩

/-- Chains lead to earlier tables. -/
theorem index_le_of_mem_chain (tree : scopes.IsTree) {chain : List ScopeId}
    (way : scopes.Chain scope chain) (met : place ∈ chain) : place.index ≤ scope.index := by
  induction way with
  | nowhere dead => exact absurd met List.not_mem_nil
  | top root => exact Nat.le_of_eq (congrArg ScopeId.index (List.mem_singleton.mp met))
  | upward up above inductionHypothesis =>
    rcases List.mem_cons.mp met with rfl | later
    · exact Nat.le_refl _
    · have before := tree.parent_lt up
      have notAfter := inductionHypothesis later
      omega

/-- In a tree every search ends. -/
theorem exists_looks (tree : scopes.IsTree) (scope : ScopeId) (name : String) :
    ∃ visited result, Looks scopes name scope visited result := by
  obtain ⟨chain, way⟩ := tree.exists_chain scope
  obtain ⟨visited, looks⟩ := way.looks name
  exact ⟨visited, _, looks⟩

theorem exists_owner (tree : scopes.IsTree) (scope : ScopeId) (name : String) :
    ∃ result, scopes.owner? scope name = some result ∧
      ∀ fuel, scopes.size ≤ fuel → scopes.search name fuel scope = some result := by
  obtain ⟨visited, result, looks⟩ := tree.exists_looks scope name
  exact ⟨result, looks.owner?_eq, fun _ => looks.search_eq⟩

theorem owner?_eq_some_iff (tree : scopes.IsTree) :
    scopes.owner? scope name = some (some place) ↔ scopes.Nearest scope name place := by
  constructor
  · intro owner
    obtain ⟨chain, way⟩ := tree.exists_chain scope
    obtain ⟨visited, looks⟩ := way.looks name
    exact ⟨chain, way, Option.some.inj (looks.owner?_eq.symm.trans owner)⟩
  · exact Nearest.owner?_eq

theorem owner?_eq_none_iff (tree : scopes.IsTree) :
    scopes.owner? scope name = some none ↔ ∀ place, ¬ scopes.Nearest scope name place := by
  obtain ⟨result, owner, -⟩ := tree.exists_owner scope name
  rw [owner, Option.some_inj, Option.eq_none_iff_forall_ne_some]
  refine forall_congr' fun place => not_congr ?_
  rw [← tree.owner?_eq_some_iff, owner, Option.some_inj]

/-- A definition in a live table of a tree makes or replaces one binding. -/
theorem rebound_define (tree : scopes.IsTree) (live : scopes.isLive place = true) (name : String)
    (value : Value) : scopes.Rebound place name value (scopes.define place name value) := by
  have parents : ∀ other, (scopes.define place name value).parent? other = scopes.parent? other :=
    fun other => parent?_define scopes place other name value
  have treeAfter : (scopes.define place name value).IsTree := tree.transfer parents
  have held := local?_define_self live name value
  refine ⟨parents, ?_, ?_, ?_⟩
  · intro other otherName
    split
    · next same =>
      obtain ⟨rfl, rfl⟩ := same
      exact held
    · next different => exact local?_define_other scopes (not_and_or.mp different) value
  · intro scope nearest
    exact resolve_eq_ok_iff.mpr ⟨place, nearest.owner?_eq, held⟩
  · intro scope otherName elsewhere
    obtain ⟨visited, result, looks⟩ := treeAfter.exists_looks scope otherName
    -- The search stops before it comes to the changed binding, or it is for another name.
    have apart : ∀ other, other ∈ visited ∨ result = some other →
        other ≠ place ∨ otherName ≠ name := by
      intro other met
      rw [← not_and_or]
      rintro ⟨rfl, rfl⟩
      have found : result = some other := by
        rcases met with visited | found
        · exact looks.result_of_bound visited (Option.isSome_of_eq_some held)
        · exact found
      exact elsewhere ⟨rfl, treeAfter.owner?_eq_some_iff.mp
        (looks.owner?_eq.trans (congrArg some found))⟩
    have looksBefore : Looks scopes otherName scope visited result := by
      refine looks.transfer (fun other => (parents other).symm) ?_
      intro other met
      rw [local?_define_other scopes (apart other (.inl met))]
    unfold resolve
    rw [looks.owner?_eq, looksBefore.owner?_eq]
    cases result with
    | none => rfl
    | some found =>
      rw [Option.map_some, Option.map_some, Option.bind_some, Option.bind_some,
        local?_define_other scopes (apart found (.inr rfl))]

/-- The newest table lies on no chain but its own. -/
theorem eq_of_newest_mem_chain (tree : scopes.IsTree) {chain : List ScopeId}
    (newest : place.index + 1 = scopes.size) (way : scopes.Chain scope chain)
    (met : place ∈ chain) : scope = place := by
  have live : scopes.isLive scope = true := by
    rw [isLive_iff_parent?]
    cases way with
    | nowhere dead => exact absurd met List.not_mem_nil
    | top root => exact Option.isSome_of_eq_some root
    | upward up _ => exact Option.isSome_of_eq_some up
  have before := isLive_iff.mp live
  have notAfter := tree.index_le_of_mem_chain way met
  obtain ⟨index⟩ := scope
  obtain ⟨placeIndex⟩ := place
  simp only [ScopeId.mk.injEq] at *
  omega

end IsTree

/-- A table goes only when it is released itself, and only if it is the newest one. -/
theorem released_of_gone {operation : Operation} (live : scopes.isLive place = true)
    (gone : (operation.apply scopes).isLive place = false) :
    operation = .release place ∧ place ≠ .global ∧ place.index + 1 = scopes.size := by
  cases operation with
  | createChild parent =>
    have inside := isLive_iff.mp live
    have outside := of_decide_eq_false gone
    rw [Operation.apply, size_createChild] at outside
    omega
  | release scope =>
    by_cases newest : scope ≠ .global ∧ scope.index + 1 = scopes.size
    · obtain ⟨isLocal, newest⟩ := newest
      by_cases same : place = scope
      · subst same
        exact ⟨rfl, isLocal, newest⟩
      · rw [Operation.apply, ← Bool.not_eq_true, isLive_iff_parent?,
          parent?_release_newest isLocal newest, if_neg same, ← isLive_iff_parent?] at gone
        exact absurd live gone
    · rw [Operation.apply, release_other (by rwa [not_and_or, not_ne_iff] at newest), live] at gone
      cases gone
  | define scope name value =>
    rw [Operation.apply, isLive_define, live] at gone
    cases gone
  | assign scope name value =>
    simp only [Operation.apply] at gone
    split at gone
    · next assigned succeeded =>
      obtain ⟨owner, -, rfl⟩ := assign_eq_ok_iff.mp succeeded
      rw [isLive_define, live] at gone
      cases gone
    · rw [live] at gone
      cases gone

theorem Operation.OnLive.belowLive {issued : List ScopeId} {operation : Operation}
    (sound : operation.OnLive scopes issued) : operation.BelowLive scopes := by
  cases operation with
  | createChild parent => exact sound
  | release scope | define scope name value | assign scope name value => trivial

/-- Tables that are created below live tables and written while they are live form a tree of scopes.
The global table stays, and no other table goes while there is one below it. From every live table a
chain of tables leads to the global one, and searches end; a name stands for its first binding on
the chain, and is undefined if there is none. An assignment replaces that binding and a definition
makes or replaces one in its own table, and all look-ups that do not come to it first are as
before. -/
theorem operations_keep_a_tree_of_scopes {issued : List ScopeId}
    (built : Built Operation.OnLive scopes issued) :
    scopes.IsTree ∧
    (∀ scope, scope = .global ∨ scope.index + 1 ≠ scopes.size → scopes.release scope = scopes) ∧
    (∀ operation place, scopes.isLive place = true →
      (Operation.apply scopes operation).isLive place = false →
        operation = .release place ∧ place ≠ .global ∧
          ∀ scope chain, scopes.Chain scope chain → place ∈ chain → scope = place) ∧
    (∀ scope, scopes.isLive scope = true → ∃ chain, scopes.Chain scope chain ∧
      chain.head? = some scope ∧ chain.getLast? = some .global) ∧
    (∀ scope name, ∃ result, scopes.owner? scope name = some result ∧
      ∀ fuel, scopes.size ≤ fuel → scopes.search name fuel scope = some result) ∧
    (∀ scope name,
      (∀ value, scopes.resolve scope name = some (.ok value) ↔
        ∃ place, scopes.Nearest scope name place ∧ scopes.local? place name = some value) ∧
      ∀ cause, scopes.resolve scope name = some (.error cause) ↔
        cause = .undefinedVariable name ∧ ∀ place, ¬ scopes.Nearest scope name place) ∧
    (∀ scope name value,
      (∀ place, scopes.Nearest scope name place → ∃ after,
        scopes.assign scope name value = some (.ok after) ∧
          scopes.Rebound place name value after) ∧
      ((∀ place, ¬ scopes.Nearest scope name place) →
        scopes.assign scope name value = some (.error (.undefinedVariable name)))) ∧
    ∀ scope name value, scopes.isLive scope = true →
      scopes.Rebound scope name value (scopes.define scope name value) := by
  have tree : scopes.IsTree := built.isTree fun _ _ _ sound => sound.belowLive
  refine ⟨tree, fun _ => release_other, ?_, fun _ => tree.chain_of_live, tree.exists_owner, ?_, ?_,
    ?_⟩
  · intro operation place live gone
    obtain ⟨released, isLocal, newest⟩ := released_of_gone live gone
    exact ⟨released, isLocal, fun _ _ => tree.eq_of_newest_mem_chain newest⟩
  · intro scope name
    constructor
    · intro value
      simp only [resolve_eq_ok_iff, tree.owner?_eq_some_iff]
    · intro cause
      rw [resolve_eq_error_iff, tree.owner?_eq_none_iff, and_comm]
  · intro scope name value
    constructor
    · intro place nearest
      have owner := nearest.owner?_eq
      have live := isLive_of_local? (local?_owner owner)
      exact ⟨_, assign_eq_ok_iff.mpr ⟨place, owner, rfl⟩, tree.rebound_define live name value⟩
    · intro nowhere
      exact assign_eq_error_iff.mpr ⟨tree.owner?_eq_none_iff.mpr nowhere, rfl⟩
  · intro scope name value live
    exact tree.rebound_define live name value

/-- Two tables below a third, with a name bound in the global table and in the third. -/
def branching : Scopes :=
  ((((Scopes.createChild {} .global).createChild ⟨1⟩).createChild ⟨1⟩).define .global "x"
    (.int 1)).define ⟨1⟩ "x" (.int 2)

/-- The tables of `branching` have been created one below the other; the second of them cannot be
released, and a new variable in it is not seen from its sibling. -/
theorem branching_is_a_tree_of_scopes :
    Built Operation.OnLive branching [⟨3⟩, ⟨2⟩, ⟨1⟩, .global] ∧ branching.IsTree ∧
      branching.release ⟨2⟩ = branching ∧ branching.isLive ⟨2⟩ = true ∧
      branching.Rebound ⟨2⟩ "x" (.int 3) (branching.define ⟨2⟩ "x" (.int 3)) ∧
      branching.resolve ⟨3⟩ "x" = some (.ok (.int 2)) ∧
      ∃ after, branching.assign ⟨3⟩ "x" (.int 4) = some (.ok after) ∧
        branching.Rebound ⟨1⟩ "x" (.int 4) after := by
  have created : Built Operation.OnLive _ _ :=
    @Built.next _ _ _ (.createChild ⟨1⟩)
      (@Built.next _ _ _ (.createChild ⟨1⟩)
        (@Built.next _ _ _ (.createChild .global) .new rfl) rfl) rfl
  have built : Built Operation.OnLive branching [⟨3⟩, ⟨2⟩, ⟨1⟩, .global] :=
    @Built.next _ _ _ (.define ⟨1⟩ "x" (.int 2))
      (@Built.next _ _ _ (.define .global "x" (.int 1)) created rfl) rfl
  obtain ⟨tree, kept, -, -, -, resolves, assigns, defines⟩ := operations_keep_a_tree_of_scopes built
  have nearest : branching.Nearest ⟨3⟩ "x" ⟨1⟩ :=
    ⟨[⟨3⟩, ⟨1⟩, ⟨0⟩], .upward rfl (.upward rfl (.top rfl)), by decide⟩
  refine ⟨built, tree, kept ⟨2⟩ (.inr (by decide)), rfl, defines ⟨2⟩ "x" (.int 3) rfl, ?_, ?_⟩
  · exact ((resolves ⟨3⟩ "x").1 (.int 2)).mpr ⟨⟨1⟩, nearest, rfl⟩
  · exact (assigns ⟨3⟩ "x" (.int 4)).1 ⟨1⟩ nearest

/-- However places are given out, released and used again, a search from any place ends and looks
at no table twice, provided that tables are created below live tables only. Its result is what names
are resolved and assigned by. -/
theorem searches_below_live_parents_end {issued : List ScopeId}
    (built : Built Operation.IsCareful scopes issued) (scope : ScopeId) (name : String) :
    ∃ visited result, Looks scopes name scope visited result ∧ visited.Nodup ∧
      visited.length ≤ scopes.size ∧ scopes.owner? scope name = some result ∧
      ∀ fuel, scopes.size ≤ fuel → scopes.search name fuel scope = some result := by
  have tree : scopes.IsTree := built.isTree fun _ _ _ allowed => allowed.2
  obtain ⟨visited, result, looks⟩ := tree.exists_looks scope name
  exact ⟨visited, result, looks, looks.nodup, looks.length_le, looks.owner?_eq,
    fun _ => looks.search_eq⟩

/-- A table below one that is not the global one, created again after its place has been released
and a definition in the released place has come to nothing. -/
def revived : Scopes :=
  ((((Scopes.createChild {} .global).createChild ⟨1⟩).release ⟨2⟩).define ⟨2⟩ "x"
    (.int 1)).createChild ⟨1⟩

/-- A search through `revived` ends, and so does one from a place that was never given out. -/
theorem revived_searches_end :
    Built Operation.IsCareful revived [⟨2⟩, ⟨2⟩, ⟨1⟩, .global] ∧
    ∀ scope ∈ [⟨2⟩, ⟨9⟩], ∃ visited result, Looks revived "x" scope visited result ∧
      visited.Nodup ∧ visited.length ≤ revived.size ∧ revived.owner? scope "x" = some result ∧
      ∀ fuel, revived.size ≤ fuel → revived.search "x" fuel scope = some result := by
  have built : Built Operation.IsCareful revived [⟨2⟩, ⟨2⟩, ⟨1⟩, .global] :=
    @Built.next _ _ _ (.createChild ⟨1⟩)
      (@Built.next _ _ _ (.define ⟨2⟩ "x" (.int 1))
        (@Built.next _ _ _ (.release ⟨2⟩)
          (@Built.next _ _ _ (.createChild ⟨1⟩)
            (@Built.next _ _ _ (.createChild .global) .new ⟨by decide, rfl⟩)
            ⟨by decide, rfl⟩)
          ⟨by decide, trivial⟩)
        ⟨by decide, trivial⟩)
      ⟨by decide, rfl⟩
  exact ⟨built, fun scope _ => searches_below_live_parents_end built scope "x"⟩

/-- A table created below a released place that it takes itself. -/
def circular : Scopes :=
  ((Scopes.createChild {} .global).release ⟨1⟩).createChild ⟨1⟩

/-- With places that have been given out and released, tables can be created through which a search
never ends. -/
theorem circular_is_searched_forever :
    Built Operation.OnIssued circular [⟨1⟩, ⟨1⟩, .global] ∧
      circular.parent? ⟨1⟩ = some (some ⟨1⟩) ∧
      (∀ fuel, circular.search "x" fuel ⟨1⟩ = none) ∧ circular.resolve ⟨1⟩ "x" = none ∧
      ¬ ∃ visited result, Looks circular "x" ⟨1⟩ visited result := by
  have built : Built Operation.OnIssued circular [⟨1⟩, ⟨1⟩, .global] :=
    @Built.next _ _ _ (.createChild ⟨1⟩)
      (@Built.next _ _ _ (.release ⟨1⟩)
        (@Built.next _ _ _ (.createChild .global) .new (by decide)) (by decide))
      (by decide)
  have never : ∀ fuel, circular.search "x" fuel ⟨1⟩ = none := search_eq_none_iff.mp rfl
  refine ⟨built, rfl, never, resolve_eq_none_iff.mpr never, ?_⟩
  rintro ⟨visited, result, looks⟩
  have answered := search_eq_some_iff.mpr ⟨visited, looks, Nat.le_refl _⟩
  rw [never] at answered
  cases answered

end StackLang.Scopes
