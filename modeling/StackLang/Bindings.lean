/-!
# Bindings of names

Names bound to contents, kept in strictly increasing order of names so that the order in which they
were bound is forgotten. Tables that are only bound in and looked up are bindings: scopes,
functions, struct types. `find?_insert` says what an insertion changes, and `Bindings.ext` that
bindings are determined by their look-ups.
-/

namespace StackLang

universe u

namespace Bindings

variable {α : Type u}

/-- Entries whose names increase strictly, in the order of their code points. -/
def Increasing (entries : List (String × α)) : Prop :=
  entries.Pairwise fun earlier later => earlier.1 < later.1

/-- The contents stored under a name in a list of entries. -/
def lookup (name : String) : List (String × α) → Option α
  | [] => none
  | (other, content) :: rest => if name = other then some content else lookup name rest

/-- Store contents under a name at its place in a list of entries, over what it held before. -/
def store (name : String) (content : α) : List (String × α) → List (String × α)
  | [] => [(name, content)]
  | (other, held) :: rest =>
    if name = other then (name, content) :: rest
    else if name < other then (name, content) :: (other, held) :: rest
    else (other, held) :: store name content rest

theorem lt_of_not_lt_of_ne {left right : String} (notBefore : ¬ left < right)
    (different : left ≠ right) : right < left := by
  rcases Decidable.em (right < left) with after | notAfter
  · exact after
  · exact absurd (String.le_antisymm (String.not_lt.mp notAfter) (String.not_lt.mp notBefore))
      different

theorem mem_store {name : String} {content : α} {entries : List (String × α)}
    {entry : String × α} (member : entry ∈ store name content entries) :
    entry = (name, content) ∨ entry ∈ entries := by
  induction entries with
  | nil => simpa [store] using member
  | cons head rest inductionHypothesis =>
    obtain ⟨held, contentHeld⟩ := head
    simp only [store] at member
    split at member
    · rcases List.mem_cons.mp member with found | found
      · exact .inl found
      · exact .inr (List.mem_cons_of_mem _ found)
    · split at member
      · rcases List.mem_cons.mp member with found | found
        · exact .inl found
        · exact .inr found
      · rcases List.mem_cons.mp member with found | found
        · exact .inr (found ▸ List.mem_cons_self)
        · exact (inductionHypothesis found).imp_right (List.mem_cons_of_mem _)

theorem Increasing.store {entries : List (String × α)} (increasing : Increasing entries)
    (name : String) (content : α) : Increasing (Bindings.store name content entries) := by
  induction entries with
  | nil => exact List.pairwise_singleton _ _
  | cons head rest inductionHypothesis =>
    obtain ⟨held, contentHeld⟩ := head
    obtain ⟨headBefore, restIncreasing⟩ := List.pairwise_cons.mp increasing
    simp only [Bindings.store]
    split
    · next same =>
      subst same
      exact List.pairwise_cons.mpr ⟨headBefore, restIncreasing⟩
    · next different =>
      split
      · next before =>
        refine List.pairwise_cons.mpr ⟨?_, increasing⟩
        intro entry member
        rcases List.mem_cons.mp member with rfl | later
        · exact before
        · exact String.lt_trans before (headBefore entry later)
      · next notBefore =>
        refine List.pairwise_cons.mpr ⟨?_, inductionHypothesis restIncreasing⟩
        intro entry member
        rcases mem_store member with rfl | later
        · exact lt_of_not_lt_of_ne notBefore different
        · exact headBefore entry later

end Bindings

/-- Contents bound to distinct names, in increasing order of the names. -/
structure Bindings (α : Type u) where
  entries : List (String × α)
  increasing : Bindings.Increasing entries

namespace Bindings

variable {α : Type u}

instance : EmptyCollection (Bindings α) := ⟨⟨[], .nil⟩⟩

/-- The contents bound to a name. -/
def find? (bindings : Bindings α) (name : String) : Option α :=
  lookup name bindings.entries

/-- Bind a name, over what it was bound to before. -/
def insert (bindings : Bindings α) (name : String) (content : α) : Bindings α :=
  ⟨store name content bindings.entries, bindings.increasing.store name content⟩

/-- Bind each entry in turn, so that of two entries for one name the later one stays. -/
def ofList (entries : List (String × α)) : Bindings α :=
  entries.foldl (fun bindings (name, content) => bindings.insert name content) {}

/-- Whether a name is bound. -/
def contains (bindings : Bindings α) (name : String) : Bool :=
  (bindings.find? name).isSome

/-- The number of bound names. -/
def size (bindings : Bindings α) : Nat :=
  bindings.entries.length

/-- Whether no name is bound. -/
def isEmpty (bindings : Bindings α) : Bool :=
  bindings.entries.isEmpty

/-- The bound names in increasing order. -/
def names (bindings : Bindings α) : List String :=
  bindings.entries.map Prod.fst

/-- The bound contents in increasing order of their names. -/
def contents (bindings : Bindings α) : List α :=
  bindings.entries.map Prod.snd

@[simp] theorem find?_empty (name : String) : (({} : Bindings α).find? name) = none := rfl

theorem lookup_store (name other : String) (content : α) (entries : List (String × α)) :
    lookup other (store name content entries) =
      if other = name then some content else lookup other entries := by
  induction entries with
  | nil => simp [store, lookup]
  | cons entry rest inductionHypothesis =>
    obtain ⟨held, contentHeld⟩ := entry
    by_cases same : name = held
    · subst same
      by_cases hit : other = name <;> simp [store, lookup, hit]
    · by_cases before : name < held
      · simp [store, lookup, same, before]
      · by_cases hit : other = held
        · subst hit
          simp [store, lookup, same, before, Ne.symm same]
        · simp [store, lookup, same, before, hit, inductionHypothesis]

/-- An insertion changes the contents of the inserted name and of no other. -/
theorem find?_insert (bindings : Bindings α) (name other : String) (content : α) :
    (bindings.insert name content).find? other =
      if other = name then some content else bindings.find? other :=
  lookup_store name other content bindings.entries

theorem lookup_eq_none_of_forall_lt {name : String} {entries : List (String × α)}
    (above : ∀ entry ∈ entries, name < entry.1) : lookup name entries = none := by
  induction entries with
  | nil => rfl
  | cons head rest inductionHypothesis =>
    have different : name ≠ head.1 := fun same =>
      String.lt_irrefl _ (same ▸ above head List.mem_cons_self)
    simp [lookup, different,
      inductionHypothesis fun entry member => above entry (List.mem_cons_of_mem _ member)]

theorem Increasing.ext {left right : List (String × α)} (leftIncreasing : Increasing left)
    (rightIncreasing : Increasing right)
    (agree : ∀ name, lookup name left = lookup name right) : left = right := by
  induction left generalizing right with
  | nil =>
    cases right with
    | nil => rfl
    | cons head rest => simpa [lookup] using agree head.1
  | cons head rest inductionHypothesis =>
    obtain ⟨name, content⟩ := head
    obtain ⟨nameBefore, restIncreasing⟩ := List.pairwise_cons.mp leftIncreasing
    cases right with
    | nil => simpa [lookup] using agree name
    | cons otherHead otherRest =>
      obtain ⟨other, otherContent⟩ := otherHead
      obtain ⟨otherBefore, otherIncreasing⟩ := List.pairwise_cons.mp rightIncreasing
      have sameName : name = other := by
        rcases Decidable.em (name < other) with before | notBefore
        · have absent : lookup name ((other, otherContent) :: otherRest) = none :=
            lookup_eq_none_of_forall_lt fun entry member => by
              rcases List.mem_cons.mp member with rfl | later
              · exact before
              · exact String.lt_trans before (otherBefore entry later)
          have present := agree name
          rw [absent] at present
          simp [lookup] at present
        · rcases Decidable.em (name = other) with same | different
          · exact same
          · have after := lt_of_not_lt_of_ne notBefore different
            have absent : lookup other ((name, content) :: rest) = none :=
              lookup_eq_none_of_forall_lt fun entry member => by
                rcases List.mem_cons.mp member with rfl | later
                · exact after
                · exact String.lt_trans after (nameBefore entry later)
            have present := agree other
            rw [absent] at present
            simp [lookup] at present
      subst sameName
      have sameContent : content = otherContent := by simpa [lookup] using agree name
      subst sameContent
      have sameRest : rest = otherRest := by
        refine inductionHypothesis restIncreasing otherIncreasing fun query => ?_
        rcases Decidable.em (query = name) with rfl | different
        · rw [lookup_eq_none_of_forall_lt nameBefore, lookup_eq_none_of_forall_lt otherBefore]
        · simpa [lookup, different] using agree query
      rw [sameRest]

/-- Bindings that agree on every look-up are equal. -/
theorem ext {left right : Bindings α} (agree : ∀ name, left.find? name = right.find? name) :
    left = right := by
  obtain ⟨entries, increasing⟩ := left
  obtain ⟨others, othersIncreasing⟩ := right
  cases increasing.ext othersIncreasing agree
  rfl

theorem names_increasing (bindings : Bindings α) : bindings.names.Pairwise (· < ·) :=
  List.pairwise_map.mpr bindings.increasing

/-- Names that increase strictly are determined by which ones they are. -/
theorem eq_of_increasing {left right : List String} (leftIncreasing : left.Pairwise (· < ·))
    (rightIncreasing : right.Pairwise (· < ·)) (same : ∀ name, name ∈ left ↔ name ∈ right) :
    left = right := by
  have members : left.Perm right := by
    refine (List.perm_ext_iff_of_nodup ?_ ?_).mpr same
    · exact leftIncreasing.imp fun before => String.ne_of_lt before
    · exact rightIncreasing.imp fun before => String.ne_of_lt before
  refine members.eq_of_pairwise ?_ leftIncreasing rightIncreasing
  intro name other _ _ before after
  exact absurd before (String.lt_asymm after)

theorem lookup_isSome_iff {name : String} {entries : List (String × α)} :
    (lookup name entries).isSome = true ↔ name ∈ entries.map Prod.fst := by
  induction entries with
  | nil => simp [lookup]
  | cons entry rest inductionHypothesis =>
    by_cases same : name = entry.1
    · simp [lookup, same]
    · simp [lookup, same, inductionHypothesis]

theorem contains_iff {bindings : Bindings α} {name : String} :
    bindings.contains name = true ↔ name ∈ bindings.names :=
  lookup_isSome_iff

end Bindings

end StackLang
