import StackLang.Bindings

/-!
# Fields

Contents by name, each name once, in an arrangement that says nothing: it depends on how the fields
were stored, and so what is shown of them goes by their names, sorted whenever they are read. A
reader can find out no more than the bindings that are left when the arrangement is forgotten
(`find?_toBindings`, `names_toBindings`, `size_toBindings`), and storing into fields is binding in
those (`toBindings_insert`).
-/

namespace StackLang

universe u

/-- Contents under distinct names, one after the other. -/
inductive Slots (α : Type u) : List String → Type u where
  | nil : Slots α []
  | cons {names : List String} (name : String) (fresh : name ∉ names) (content : α)
      (rest : Slots α names) : Slots α (name :: names)

/-- Contents by name, in any arrangement. -/
structure Fields (α : Type u) where
  /-- The names as they happen to be arranged. -/
  {stored : List String}
  slots : Slots α stored

namespace Slots

variable {α β : Type u} {names : List String}

/-- The contents under a name. -/
def find? (query : String) : {names : List String} → Slots α names → Option α
  | _, .nil => none
  | _, .cons name _ content rest => if query = name then some content else find? query rest

/-- Other contents under a name that is there. -/
def replace (query : String) (contents : α) : {names : List String} → Slots α names → Slots α names
  | _, .nil => .nil
  | _, .cons name fresh content rest =>
    if query = name then .cons name fresh contents rest
    else .cons name fresh content (replace query contents rest)

/-- Change the contents under each name. -/
def map (change : α → β) : {names : List String} → Slots α names → Slots β names
  | _, .nil => .nil
  | _, .cons name fresh content rest => .cons name fresh (change content) (map change rest)

/-- The bindings of the names to the contents under them. -/
def toBindings : {names : List String} → Slots α names → Bindings α
  | _, .nil => {}
  | _, .cons name _ content rest => rest.toBindings.insert name content

theorem find?_isSome_iff {query : String} (slots : Slots α names) :
    (slots.find? query).isSome = true ↔ query ∈ names := by
  induction slots with
  | nil => simp [find?]
  | cons name fresh content rest inductionHypothesis =>
    by_cases same : query = name
    · simp [find?, same]
    · simp [find?, same, inductionHypothesis]

theorem find?_fresh {query : String} (slots : Slots α names) (fresh : query ∉ names) :
    slots.find? query = none := by
  rw [← Option.not_isSome_iff_eq_none, slots.find?_isSome_iff]
  exact fresh

theorem find?_replace {name : String} (slots : Slots α names) (present : name ∈ names)
    (contents : α) (query : String) :
    (slots.replace name contents).find? query =
      if query = name then some contents else slots.find? query := by
  induction slots with
  | nil => cases present
  | cons other fresh content rest inductionHypothesis =>
    by_cases here : name = other
    · subst here
      by_cases same : query = name <;> simp [replace, find?, same]
    · have later := (List.mem_cons.mp present).resolve_left here
      by_cases held : query = other
      · subst held
        simp [replace, find?, here, Ne.symm here]
      · simp [replace, find?, here, held, inductionHypothesis later]

theorem find?_map (change : α → β) (slots : Slots α names) (query : String) :
    (slots.map change).find? query = (slots.find? query).map change := by
  induction slots with
  | nil => rfl
  | cons name fresh content rest inductionHypothesis =>
    by_cases same : query = name
    · simp [map, find?, same]
    · simp [map, find?, same, inductionHypothesis]

theorem find?_toBindings (slots : Slots α names) (query : String) :
    slots.toBindings.find? query = slots.find? query := by
  induction slots with
  | nil => rfl
  | cons name fresh content rest inductionHypothesis =>
    rw [toBindings, Bindings.find?_insert, inductionHypothesis, find?]

theorem nodup (slots : Slots α names) : names.Nodup := by
  induction slots with
  | nil => exact List.nodup_nil
  | cons name fresh content rest inductionHypothesis =>
    exact List.nodup_cons.mpr ⟨fresh, inductionHypothesis⟩

end Slots

namespace Fields

variable {α β : Type u}

instance : EmptyCollection (Fields α) := ⟨⟨.nil⟩⟩

/-- The contents of a field. -/
def find? (fields : Fields α) (name : String) : Option α :=
  fields.slots.find? name

/-- Store into a field, over what it held before. -/
def insert (fields : Fields α) (name : String) (content : α) : Fields α :=
  if present : name ∈ fields.stored then ⟨fields.slots.replace name content⟩
  else ⟨.cons name present content fields.slots⟩

/-- Store each entry in turn, so that of two entries for one name the later one stays. -/
def ofList (entries : List (String × α)) : Fields α :=
  entries.foldl (fun fields (name, content) => fields.insert name content) {}

/-- Whether a field has been stored. -/
def contains (fields : Fields α) (name : String) : Bool :=
  (fields.find? name).isSome

/-- The number of fields. -/
def size (fields : Fields α) : Nat :=
  fields.stored.length

/-- Whether no field has been stored. -/
def isEmpty (fields : Fields α) : Bool :=
  fields.stored.isEmpty

/-- The names of the fields, sorted. -/
def names (fields : Fields α) : List String :=
  fields.stored.mergeSort (· ≤ ·)

/-- Change the contents of each field. -/
def map (change : α → β) (fields : Fields α) : Fields β :=
  ⟨fields.slots.map change⟩

/-- The bindings of the names to the contents, without the arrangement. -/
def toBindings (fields : Fields α) : Bindings α :=
  fields.slots.toBindings

@[simp] theorem find?_empty (name : String) : ({} : Fields α).find? name = none := rfl

@[simp] theorem find?_map (change : α → β) (fields : Fields α) (name : String) :
    (fields.map change).find? name = (fields.find? name).map change :=
  fields.slots.find?_map change name

@[simp] theorem names_map (change : α → β) (fields : Fields α) :
    (fields.map change).names = fields.names := rfl

theorem contains_iff_mem_stored {fields : Fields α} {name : String} :
    fields.contains name = true ↔ name ∈ fields.stored :=
  fields.slots.find?_isSome_iff

/-- An insertion changes the contents of the inserted field and of no other. -/
theorem find?_insert (fields : Fields α) (name other : String) (content : α) :
    (fields.insert name content).find? other =
      if other = name then some content else fields.find? other := by
  unfold insert
  split
  · next present => exact fields.slots.find?_replace present content other
  · rfl

theorem mem_names_iff {fields : Fields α} {name : String} :
    name ∈ fields.names ↔ fields.contains name = true :=
  List.mem_mergeSort.trans contains_iff_mem_stored.symm

theorem nodup_names (fields : Fields α) : fields.names.Nodup :=
  (List.mergeSort_perm _ _).nodup_iff.mpr fields.slots.nodup

theorem length_names (fields : Fields α) : fields.names.length = fields.size :=
  List.length_mergeSort _

/-- The names of fields increase strictly, whatever the arrangement. -/
theorem names_increasing (fields : Fields α) : fields.names.Pairwise (· < ·) := by
  have sorted : fields.names.Pairwise fun earlier later => decide (earlier ≤ later) = true := by
    refine List.pairwise_mergeSort ?_ ?_ fields.stored
    · intro first second third before after
      exact decide_eq_true (String.le_trans (of_decide_eq_true before) (of_decide_eq_true after))
    · intro first second
      simpa using String.le_total first second
  refine (sorted.and fields.nodup_names).imp ?_
  rintro earlier later ⟨notAfter, different⟩
  rcases Decidable.em (earlier < later) with before | notBefore
  · exact before
  · have after := Bindings.lt_of_not_lt_of_ne notBefore different
    exact absurd after (String.not_lt.mpr (of_decide_eq_true notAfter))

@[simp] theorem find?_toBindings (fields : Fields α) (name : String) :
    fields.toBindings.find? name = fields.find? name :=
  fields.slots.find?_toBindings name

theorem contains_toBindings (fields : Fields α) (name : String) :
    fields.toBindings.contains name = fields.contains name := by
  rw [Bindings.contains, find?_toBindings, contains]

/-- Forgetting the arrangement leaves exactly what can be looked up. -/
theorem toBindings_eq_iff {left right : Fields α} :
    left.toBindings = right.toBindings ↔ ∀ name, left.find? name = right.find? name := by
  constructor
  · intro same name
    rw [← left.find?_toBindings, same, right.find?_toBindings]
  · intro agree
    exact Bindings.ext fun name => by simpa using agree name

/-- Storing into a field is binding its name. -/
theorem toBindings_insert (fields : Fields α) (name : String) (content : α) :
    (fields.insert name content).toBindings = fields.toBindings.insert name content := by
  refine Bindings.ext fun query => ?_
  rw [find?_toBindings, find?_insert, Bindings.find?_insert, find?_toBindings]

/-- Fields with the same names show the same ones. -/
theorem names_eq_of_contains {left : Fields α} {right : Fields β}
    (same : ∀ name, left.contains name = right.contains name) : left.names = right.names :=
  Bindings.eq_of_increasing left.names_increasing right.names_increasing fun name => by
    rw [mem_names_iff, mem_names_iff, same]

theorem names_toBindings (fields : Fields α) : fields.toBindings.names = fields.names :=
  Bindings.eq_of_increasing fields.toBindings.names_increasing fields.names_increasing fun _ => by
    rw [← Bindings.contains_iff, contains_toBindings, mem_names_iff]

theorem size_toBindings (fields : Fields α) : fields.toBindings.size = fields.size := by
  rw [← fields.length_names, ← names_toBindings]
  exact (List.length_map _).symm

end Fields

end StackLang
