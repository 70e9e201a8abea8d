import Mathlib.Data.List.Perm.Subperm
import StackLang.Machine.Scopes

/-!
# Looking a name up

`Scopes.Looks` says by rules, without a bound, what a search for a name comes to and which tables it
looks at. A search that ends looks at no table twice (`Looks.nodup`) and so at no more of them than
there are (`Looks.length_le`); hence it never feels the bound under which `Scopes.owner?` searches
(`Looks.owner?_eq`), and a search that has not ended by then never ends (`search_eq_none_iff`). What
a search finds depends on the parents and on the tables it looks at only (`Looks.transfer`); so a
binding that is replaced stays the nearest one of its name (`owner?_define_owner`).
-/

namespace StackLang.Scopes

variable {scopes after : Scopes} {name : String} {scope place : ScopeId}

/-- The parent of the table at a place, if there is a table and if it has one. -/
def parent? (scopes : Scopes) (scope : ScopeId) : Option (Option ScopeId) :=
  (scopes.table? scope).map SymbolTable.parent

theorem isLive_iff_table? :
    scopes.isLive scope = true ↔ ∃ table, scopes.table? scope = some table := by
  rw [isLive_iff, table?, size, ← Option.isSome_iff_exists]
  simp

theorem isSome_local? {table : SymbolTable} (live : scopes.table? scope = some table)
    (name : String) : (scopes.local? scope name).isSome = table.bindings.contains name := by
  simp only [local?, live, Option.bind_some]
  rfl

theorem isLive_of_local? (held : (scopes.local? scope name).isSome = true) :
    scopes.isLive scope = true := by
  rw [isLive_iff_table?, ← Option.isSome_iff_exists]
  exact Option.isSome_of_isSome_bind held

theorem table?_define (scopes : Scopes) (place other : ScopeId) (name : String) (value : Value) :
    (scopes.define place name value).table? other =
      (scopes.table? other).map fun table =>
        if other = place then table.define name value else table := by
  obtain ⟨index⟩ := place
  obtain ⟨otherIndex⟩ := other
  simp only [define, modify, table?, Array.getElem?_modify, ScopeId.mk.injEq]
  by_cases same : index = otherIndex
  · subst same
    simp
  · simp [same, Ne.symm same]

/-- A definition leaves the parents alone. -/
theorem parent?_define (scopes : Scopes) (place other : ScopeId) (name : String) (value : Value) :
    (scopes.define place name value).parent? other = scopes.parent? other := by
  rw [parent?, table?_define, Option.map_map]
  congr 1
  ext table : 1
  simp only [Function.comp_apply]
  split <;> rfl

/-- No other binding than the one that is made changes. -/
theorem local?_define_other (scopes : Scopes) {other : ScopeId} {otherName : String}
    (different : other ≠ place ∨ otherName ≠ name) (value : Value) :
    (scopes.define place name value).local? other otherName = scopes.local? other otherName := by
  unfold local?
  rw [table?_define]
  cases scopes.table? other with
  | none => rfl
  | some table =>
    by_cases here : other = place
    · have otherwise : otherName ≠ name := different.resolve_left (not_not_intro here)
      simp [here, SymbolTable.define, Bindings.find?_insert, otherwise]
    · simp [here]

theorem local?_define_self (live : scopes.isLive place = true) (name : String) (value : Value) :
    (scopes.define place name value).local? place name = some value := by
  obtain ⟨table, live⟩ := isLive_iff_table?.mp live
  unfold local?
  rw [table?_define, live]
  simp [SymbolTable.define, Bindings.find?_insert]

/-- A search for a name from a place ends, after it has looked at the given tables in turn, at the
table that binds the name, or without one. -/
inductive Looks (scopes : Scopes) (name : String) :
    ScopeId → List ScopeId → Option ScopeId → Prop where
  | nowhere {scope : ScopeId} (dead : scopes.table? scope = none) :
      Looks scopes name scope [] none
  | here {scope : ScopeId} {table : SymbolTable} (live : scopes.table? scope = some table)
      (bound : table.bindings.contains name = true) :
      Looks scopes name scope [scope] (some scope)
  | top {scope : ScopeId} {table : SymbolTable} (live : scopes.table? scope = some table)
      (unbound : table.bindings.contains name = false) (root : table.parent = none) :
      Looks scopes name scope [scope] none
  | upward {scope parent : ScopeId} {table : SymbolTable} {visited : List ScopeId}
      {result : Option ScopeId} (live : scopes.table? scope = some table)
      (unbound : table.bindings.contains name = false) (up : table.parent = some parent)
      (above : Looks scopes name parent visited result) :
      Looks scopes name scope (scope :: visited) result

namespace Looks

variable {visited : List ScopeId} {result : Option ScopeId}

/-- A search has one way to go. -/
theorem unique {otherVisited : List ScopeId} {otherResult : Option ScopeId}
    (looks : Looks scopes name scope visited result)
    (otherLooks : Looks scopes name scope otherVisited otherResult) :
    visited = otherVisited ∧ result = otherResult := by
  induction looks generalizing otherVisited with
  | nowhere dead => cases otherLooks <;> simp_all
  | here live bound => cases otherLooks <;> simp_all
  | top live unbound root => cases otherLooks <;> simp_all
  | upward live unbound up above inductionHypothesis =>
    cases otherLooks with
    | nowhere dead => simp_all
    | here otherLive bound => simp_all
    | top otherLive _ root => simp_all
    | upward otherLive _ otherUp otherAbove =>
      rw [live, Option.some_inj] at otherLive
      subst otherLive
      rw [up, Option.some_inj] at otherUp
      subst otherUp
      obtain ⟨rfl, rfl⟩ := inductionHypothesis otherAbove
      exact ⟨rfl, rfl⟩

/-- From each table that is looked at the search goes on as from anywhere. -/
theorem from_visited (looks : Looks scopes name scope visited result) (met : place ∈ visited) :
    ∃ rest, rest.length ≤ visited.length ∧ Looks scopes name place rest result := by
  induction looks with
  | nowhere dead => exact absurd met List.not_mem_nil
  | here live bound =>
    obtain rfl := List.mem_singleton.mp met
    exact ⟨_, Nat.le_refl _, .here live bound⟩
  | top live unbound root =>
    obtain rfl := List.mem_singleton.mp met
    exact ⟨_, Nat.le_refl _, .top live unbound root⟩
  | upward live unbound up above inductionHypothesis =>
    rcases List.mem_cons.mp met with rfl | later
    · exact ⟨_, Nat.le_refl _, .upward live unbound up above⟩
    · obtain ⟨rest, shorter, fromPlace⟩ := inductionHypothesis later
      exact ⟨rest, Nat.le_succ_of_le shorter, fromPlace⟩

/-- A search that ends looks at no table twice: from the second time on it would have to go on as it
did from the first, and could not be shorter. -/
theorem nodup (looks : Looks scopes name scope visited result) : visited.Nodup := by
  induction looks with
  | nowhere dead => exact List.nodup_nil
  | here live bound => exact List.pairwise_singleton _ _
  | top live unbound root => exact List.pairwise_singleton _ _
  | upward live unbound up above inductionHypothesis =>
    refine List.nodup_cons.mpr ⟨?_, inductionHypothesis⟩
    intro again
    obtain ⟨rest, shorter, fromAgain⟩ := above.from_visited again
    obtain ⟨rfl, -⟩ := fromAgain.unique (.upward live unbound up above)
    rw [List.length_cons] at shorter
    omega

theorem isLive_of_mem (looks : Looks scopes name scope visited result) (met : place ∈ visited) :
    scopes.isLive place = true := by
  induction looks with
  | nowhere dead => exact absurd met List.not_mem_nil
  | here live _ | top live _ _ =>
    obtain rfl := List.mem_singleton.mp met
    exact isLive_iff_table?.mpr ⟨_, live⟩
  | upward live _ _ _ inductionHypothesis =>
    rcases List.mem_cons.mp met with rfl | later
    · exact isLive_iff_table?.mpr ⟨_, live⟩
    · exact inductionHypothesis later

/-- A search that ends looks at no more tables than there are. -/
theorem length_le (looks : Looks scopes name scope visited result) :
    visited.length ≤ scopes.size := by
  have within : visited ⊆ (List.range scopes.size).map ScopeId.mk := by
    intro place met
    have live := isLive_iff.mp (looks.isLive_of_mem met)
    exact List.mem_map.mpr ⟨place.index, List.mem_range.mpr live, rfl⟩
  have bounded := (looks.nodup.subperm within).length_le
  rwa [List.length_map, List.length_range] at bounded

/-- The table that is found binds the name. -/
theorem isSome_local? (looks : Looks scopes name scope visited (some place)) :
    (scopes.local? place name).isSome = true := by
  generalize found : some place = result at looks
  induction looks with
  | nowhere dead => cases found
  | here live bound =>
    cases found
    rwa [Scopes.isSome_local? live]
  | top live unbound root => cases found
  | upward _ _ _ _ inductionHypothesis => exact inductionHypothesis found

/-- A search goes no further than the first table that binds the name. -/
theorem result_of_bound (looks : Looks scopes name scope visited result) (met : place ∈ visited)
    (bound : (scopes.local? place name).isSome = true) : result = some place := by
  induction looks with
  | nowhere dead => exact absurd met List.not_mem_nil
  | here live _ => rw [List.mem_singleton.mp met]
  | top live unbound root =>
    obtain rfl := List.mem_singleton.mp met
    rw [Scopes.isSome_local? live, unbound] at bound
    cases bound
  | upward live unbound up above inductionHypothesis =>
    rcases List.mem_cons.mp met with rfl | later
    · rw [Scopes.isSome_local? live, unbound] at bound
      cases bound
    · exact inductionHypothesis later

/-- What a search finds depends on the parents of the tables and on which of the tables that it
looks at bind the name. -/
theorem transfer (looks : Looks scopes name scope visited result)
    (parents : ∀ other, after.parent? other = scopes.parent? other)
    (bound : ∀ other ∈ visited,
      (after.local? other name).isSome = (scopes.local? other name).isSome) :
    Looks after name scope visited result := by
  have survives : ∀ {scope : ScopeId} {table : SymbolTable}, scopes.table? scope = some table →
      ∃ changed, after.table? scope = some changed ∧ changed.parent = table.parent := by
    intro scope table live
    have same := parents scope
    rw [parent?, parent?, live, Option.map_some] at same
    exact Option.map_eq_some_iff.mp same
  induction looks with
  | @nowhere scope dead =>
    have same := parents scope
    rw [parent?, parent?, dead, Option.map_none, Option.map_eq_none_iff] at same
    exact .nowhere same
  | @here scope _ live holds =>
    obtain ⟨changed, liveAfter, -⟩ := survives live
    have same := bound scope List.mem_cons_self
    rw [Scopes.isSome_local? live, Scopes.isSome_local? liveAfter, holds] at same
    exact .here liveAfter same
  | @top scope _ live unbound root =>
    obtain ⟨changed, liveAfter, parent_eq⟩ := survives live
    have same := bound scope List.mem_cons_self
    rw [Scopes.isSome_local? live, Scopes.isSome_local? liveAfter, unbound] at same
    exact .top liveAfter same (parent_eq.trans root)
  | @upward scope _ _ _ _ live unbound up above inductionHypothesis =>
    obtain ⟨changed, liveAfter, parent_eq⟩ := survives live
    obtain ⟨same, others⟩ := List.forall_mem_cons.mp bound
    rw [Scopes.isSome_local? live, Scopes.isSome_local? liveAfter, unbound] at same
    exact .upward liveAfter same (parent_eq.trans up) (inductionHypothesis others)

end Looks

/-- A bounded search has an answer exactly if the search ends within the bound. -/
theorem search_eq_some_iff {fuel : Nat} {result : Option ScopeId} :
    scopes.search name fuel scope = some result ↔
      ∃ visited, Looks scopes name scope visited result ∧ visited.length ≤ fuel := by
  constructor
  · intro answered
    induction fuel generalizing scope with
    | zero =>
      unfold search at answered
      cases live : scopes.table? scope with
      | none =>
        simp only [live, Option.some_inj] at answered
        subst answered
        exact ⟨[], .nowhere live, Nat.le_refl 0⟩
      | some table => simp [live] at answered
    | succ fuel inductionHypothesis =>
      unfold search at answered
      cases live : scopes.table? scope with
      | none =>
        simp only [live, Option.some_inj] at answered
        subst answered
        exact ⟨[], .nowhere live, Nat.zero_le _⟩
      | some table =>
        simp only [live] at answered
        split at answered
        · next bound =>
          cases answered
          exact ⟨_, .here live bound, by simp⟩
        · next unbound =>
          rw [Bool.not_eq_true] at unbound
          split at answered
          · next root =>
            cases answered
            exact ⟨_, .top live unbound root, by simp⟩
          · next parent up =>
            obtain ⟨visited, above, bounded⟩ := inductionHypothesis answered
            exact ⟨_, .upward live unbound up above, Nat.succ_le_succ bounded⟩
  · rintro ⟨visited, looks, bounded⟩
    induction looks generalizing fuel with
    | nowhere dead => simp [search, dead]
    | here live bound =>
      obtain ⟨less, rfl⟩ := Nat.exists_eq_add_of_le' bounded
      simp [search, live, bound]
    | top live unbound root =>
      obtain ⟨less, rfl⟩ := Nat.exists_eq_add_of_le' bounded
      simp [search, live, unbound, root]
    | upward live unbound up above inductionHypothesis =>
      obtain ⟨less, rfl⟩ := Nat.exists_eq_add_of_le' (Nat.lt_of_lt_of_le (Nat.succ_pos _) bounded)
      have shorter := inductionHypothesis (Nat.le_of_succ_le_succ bounded)
      simp [search, live, unbound, up, shorter]

/-- A search that has not ended when it has looked at as many tables as there are never ends. -/
theorem search_eq_none_iff :
    scopes.search name scopes.size scope = none ↔ ∀ fuel, scopes.search name fuel scope = none := by
  constructor
  · intro unanswered fuel
    rw [Option.eq_none_iff_forall_ne_some] at unanswered ⊢
    intro result answered
    obtain ⟨visited, looks, -⟩ := search_eq_some_iff.mp answered
    exact unanswered result (search_eq_some_iff.mpr ⟨visited, looks, looks.length_le⟩)
  · intro never
    exact never scopes.size

/-- A search that ends has ended once it may look at as many tables as there are. -/
theorem Looks.search_eq {visited : List ScopeId} {result : Option ScopeId} {fuel : Nat}
    (looks : Looks scopes name scope visited result) (enough : scopes.size ≤ fuel) :
    scopes.search name fuel scope = some result :=
  search_eq_some_iff.mpr ⟨visited, looks, Nat.le_trans looks.length_le enough⟩

theorem Looks.owner?_eq {visited : List ScopeId} {result : Option ScopeId}
    (looks : Looks scopes name scope visited result) : scopes.owner? scope name = some result :=
  looks.search_eq (Nat.le_refl _)

theorem exists_looks_of_owner? {result : Option ScopeId}
    (owner : scopes.owner? scope name = some result) :
    ∃ visited, Looks scopes name scope visited result := by
  obtain ⟨visited, looks, -⟩ := search_eq_some_iff.mp owner
  exact ⟨visited, looks⟩

/-- A name is resolved exactly if the search for it ends, and there is no answer if it goes on for
ever. -/
theorem resolve_eq_none_iff :
    scopes.resolve scope name = none ↔ ∀ fuel, scopes.search name fuel scope = none := by
  rw [resolve, Option.map_eq_none_iff]
  exact search_eq_none_iff

theorem local?_owner (owner : scopes.owner? scope name = some (some place)) :
    (scopes.local? place name).isSome = true := by
  obtain ⟨_, looks⟩ := exists_looks_of_owner? owner
  exact looks.isSome_local?

/-- A name that is resolved has a nearest binding, and its value is the one that is bound there. -/
theorem resolve_eq_ok_iff {value : Value} :
    scopes.resolve scope name = some (.ok value) ↔
      ∃ place, scopes.owner? scope name = some (some place) ∧
        scopes.local? place name = some value := by
  unfold resolve
  cases owner : scopes.owner? scope name with
  | none => simp
  | some result =>
    cases result with
    | none => simp
    | some place =>
      rw [Option.map_some, Option.bind_some]
      cases held : scopes.local? place name <;> simp [held]

theorem resolve_eq_error_iff {cause : RunError} :
    scopes.resolve scope name = some (.error cause) ↔
      scopes.owner? scope name = some none ∧ cause = .undefinedVariable name := by
  unfold resolve
  cases owner : scopes.owner? scope name with
  | none => simp
  | some result =>
    cases result with
    | none => simp [eq_comm]
    | some place =>
      obtain ⟨value, held⟩ := Option.isSome_iff_exists.mp (local?_owner owner)
      simp [held]

/-- A binding that is replaced stays the nearest one of its name. -/
theorem owner?_define_owner (owner : scopes.owner? scope name = some (some place))
    (value : Value) : (scopes.define place name value).owner? scope name = some (some place) := by
  obtain ⟨visited, looks⟩ := exists_looks_of_owner? owner
  have held := local?_owner owner
  refine (looks.transfer (fun other => parent?_define scopes place other name value) ?_).owner?_eq
  intro other _
  by_cases same : other = place
  · subst same
    rw [local?_define_self (isLive_of_local? held), held]
    rfl
  · rw [local?_define_other scopes (.inl same)]

theorem resolve_define_owner (owner : scopes.owner? scope name = some (some place))
    (value : Value) :
    (scopes.define place name value).resolve scope name = some (.ok value) := by
  rw [resolve_eq_ok_iff]
  exact ⟨place, owner?_define_owner owner value,
    local?_define_self (isLive_of_local? (local?_owner owner)) name value⟩

end StackLang.Scopes
