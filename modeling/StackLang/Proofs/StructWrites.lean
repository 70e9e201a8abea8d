import Mathlib
import StackLang.Proofs.TextOrder
import StackLang.Proofs.ValueEquality
import StackLang.Value.Text

/-!
# Structs forget how they were written

A struct comes to be by writes, one after the other: fields are stored, overwritten, and edited in
place, and a field may hold a struct that came to be likewise. `Writes.last?` says what was last
written to a field, and `find?_perform` that this is what the field then holds. Structs with the
same contents are alike (`SameContents.alike`): their fields may be arranged otherwise, at any
depth, but what is under each name is alike again. Values that are alike have the same text and are
equal to the same values, and how a struct shows its fields does not depend on their arrangement
(`inOrder`).
-/

namespace StackLang

mutual

/-- How a value comes to be. -/
inductive Recipe where
  /-- It is there from the start, and not a struct. -/
  | plain (value : Value) (isPlain : value.kind ≠ .struct)
  /-- It is a struct that began without fields and was written to. -/
  | struct (writes : Writes)

/-- Writes to the fields of a struct, in the order in which they are made. -/
inductive Writes where
  /-- Nothing is written. -/
  | none
  /-- Store into a field, whether it is there or not. -/
  | set (earlier : Writes) (name : String) (contents : Recipe)
  /-- Store into a field if it is there. -/
  | update (earlier : Writes) (name : String) (contents : Recipe)
  /-- Write to the fields of a struct that is in a field. -/
  | inside (earlier : Writes) (name : String) (deeper : Writes)

end

/-- A value with its fields changed, if it is a struct. -/
def Value.changeFields (change : Record → Record) : Value → Value
  | .struct fields => .struct (change fields)
  | other => other

mutual

/-- The value that comes to be. -/
def Recipe.build : Recipe → Value
  | .plain value _ => value
  | .struct writes => .struct (writes.perform {})

/-- The fields of a struct after writes to it. -/
def Writes.perform : Writes → Record → Record
  | .none, record => record
  | .set earlier name contents, record => (earlier.perform record).insert name contents.build
  | .update earlier name contents, record => (earlier.perform record).update name contents.build
  | .inside earlier name deeper, record =>
    let written := earlier.perform record
    written.update name (((written.find? name).getD .none).changeFields deeper.perform)

end

namespace Writes

/-- Writes that are followed by others. -/
def append (earlier : Writes) : Writes → Writes
  | .none => earlier
  | .set later name contents => .set (earlier.append later) name contents
  | .update later name contents => .update (earlier.append later) name contents
  | .inside later name deeper => .inside (earlier.append later) name deeper

/-- What becomes of a value by writes to its fields. -/
def edit (deeper : Writes) : Recipe → Recipe
  | .plain value isPlain => .plain value isPlain
  | .struct writes => .struct (writes.append deeper)

/-- What was last written to a field. -/
def last? : Writes → String → Option Recipe
  | .none, _ => Option.none
  | .set earlier name contents, query =>
    if query = name then some contents else earlier.last? query
  | .update earlier name contents, query =>
    (earlier.last? query).map fun held => if query = name then contents else held
  | .inside earlier name deeper, query =>
    (earlier.last? query).map fun held => if query = name then deeper.edit held else held

end Writes

/-- Values have the same contents: the same plain value, or structs in which the same fields were
written and what was last written to each field has the same contents. -/
inductive Recipe.SameContents : Recipe → Recipe → Prop where
  | plain (value : Value) (isPlain : value.kind ≠ .struct) :
      SameContents (.plain value isPlain) (.plain value isPlain)
  | struct {left right : Writes}
      (sameNames : ∀ name, (left.last? name).isSome = (right.last? name).isSome)
      (sameFields : ∀ name held other, left.last? name = some held →
        right.last? name = some other → SameContents held other) :
      SameContents (.struct left) (.struct right)

/-- Values hold the same, however the fields within them are arranged. -/
inductive Value.Alike : Value → Value → Prop where
  | plain (value : Value) (isPlain : value.kind ≠ .struct) : Alike value value
  | struct {fields others : Record}
      (sameNames : ∀ name, fields.contains name = others.contains name)
      (sameFields : ∀ name value other, fields.find? name = some value →
        others.find? name = some other → Alike value other) :
      Alike (.struct fields) (.struct others)

namespace Record

variable {record : Record} {name : String} {value : Value}

theorem find?_update (record : Record) (name query : String) (value : Value) :
    (record.update name value).find? query =
      (record.find? query).map fun held => if query = name then value else held := by
  by_cases same : query = name
  · subst same
    cases found : record.find? query <;>
      simp [update, Fields.contains, Fields.find?_insert, found]
  · simp only [update, same]
    split <;> simp [Fields.find?_insert, same]

end Record

namespace Writes

theorem perform_append (earlier : Writes) : ∀ (later : Writes) (record : Record),
    (earlier.append later).perform record = later.perform (earlier.perform record)
  | .none, _ => rfl
  | .set later name contents, record => by
    simp only [append, perform, earlier.perform_append later record]
  | .update later name contents, record => by
    simp only [append, perform, earlier.perform_append later record]
  | .inside later name deeper, record => by
    simp only [append, perform, earlier.perform_append later record]

theorem build_edit (deeper : Writes) (recipe : Recipe) :
    (deeper.edit recipe).build = recipe.build.changeFields deeper.perform := by
  cases recipe with
  | plain value isPlain =>
    cases value with
    | struct fields => exact absurd rfl isPlain
    | _ => rfl
  | struct writes => simp only [edit, Recipe.build, perform_append, Value.changeFields]

/-- After writes to an empty struct, each field holds what was last written to it. -/
theorem find?_perform : ∀ (writes : Writes) (query : String),
    (writes.perform {}).find? query = (writes.last? query).map Recipe.build
  | .none, _ => rfl
  | .set earlier name contents, query => by
    simp only [perform, last?, Fields.find?_insert, earlier.find?_perform query]
    split <;> rfl
  | .update earlier name contents, query => by
    simp only [perform, last?, Record.find?_update, earlier.find?_perform query, Option.map_map]
    refine congrArg (Option.map · _) (funext fun held => ?_)
    exact (apply_ite Recipe.build _ _ _).symm
  | .inside earlier name deeper, query => by
    simp only [perform, last?, Record.find?_update, earlier.find?_perform]
    by_cases same : query = name
    · subst same
      -- A field that is not there stays away, and one that is there gets the writes on top of the
      -- ones that made it.
      cases earlier.last? query with
      | none => rfl
      | some held => simp [build_edit]
    · simp [same, Function.comp_def]

end Writes

/-- Values with the same contents are alike. -/
theorem Recipe.SameContents.alike {left right : Recipe} (same : left.SameContents right) :
    left.build.Alike right.build := by
  induction same with
  | plain value isPlain => exact .plain value isPlain
  | @struct left right sameNames sameFields inductionHypothesis =>
    refine .struct ?_ ?_
    · intro name
      rw [Fields.contains, Fields.contains, left.find?_perform, right.find?_perform,
        Option.isSome_map, Option.isSome_map, sameNames]
    · intro name value other found foundOther
      rw [left.find?_perform] at found
      rw [right.find?_perform] at foundOther
      obtain ⟨recipe, last, rfl⟩ := Option.map_eq_some_iff.mp found
      obtain ⟨recipe', last', rfl⟩ := Option.map_eq_some_iff.mp foundOther
      exact inductionHypothesis name recipe recipe' last last'

namespace Value

/-- The text of a struct depends on the texts of its fields alone. -/
theorem recordText_congr {shown others : Fields String}
    (agree : ∀ name, shown.find? name = others.find? name) :
    recordText shown = recordText others := by
  have names_eq : shown.names = others.names :=
    Fields.names_eq_of_contains fun name => by rw [Fields.contains, agree, Fields.contains]
  simp only [recordText, names_eq, agree]

variable {left right : Value}

/-- Values that are alike have the same text. -/
theorem Alike.text_eq (alike : left.Alike right) : left.text = right.text := by
  induction alike with
  | plain value isPlain => rfl
  | @struct fields others sameNames sameFields inductionHypothesis =>
    rw [text_struct, text_struct]
    refine recordText_congr fun name => ?_
    rw [Fields.find?_map, Fields.find?_map]
    cases found : fields.find? name with
    | some value =>
      obtain ⟨other, foundOther⟩ := Fields.exists_of_contains_eq (sameNames name) found
      rw [foundOther]
      exact congrArg some (inductionHypothesis name value other found foundOther)
    | none =>
      cases foundOther : others.find? name with
      | none => rfl
      | some other =>
        obtain ⟨value, foundHere⟩ :=
          Fields.exists_of_contains_eq (sameNames name).symm foundOther
        cases found.symm.trans foundHere

/-- Values that are alike are equal to the same values. -/
theorem Alike.equal_eq (alike : left.Alike right) (last : Value) :
    left.equal last = right.equal last := by
  induction alike generalizing last with
  | plain value isPlain => rfl
  | @struct fields others sameNames sameFields inductionHypothesis =>
    rw [Bool.eq_iff_iff, equal_struct_iff, equal_struct_iff]
    refine exists_congr fun ending => and_congr_right fun _ => ?_
    refine ⟨fun related => ?_, fun related => ?_⟩
    · refine related.exchange sameNames fun name value other found foundOther last same => ?_
      rwa [← inductionHypothesis name value other found foundOther]
    · refine related.exchange (fun name => (sameNames name).symm) ?_
      intro name other value foundOther found last same
      rwa [inductionHypothesis name value other found foundOther]

end Value

namespace Record

/-- The text that lists the named fields of a struct in turn. -/
def listing (record : Record) (names : List String) : String :=
  "\x7b" ++ ", ".intercalate
    (names.map fun name => name ++ ": " ++ (record.find? name).elim "" Value.text) ++ "\x7d"

/-- How a struct shows its fields: their names increase in the order of bytes, each field that is
there is named once, and the text lists them as they are named. -/
structure InOrder (record : Record) : Prop where
  increasing : (record.names.map Text.bytes).Pairwise (· < ·)
  once : ∀ name, record.names.count name = if record.contains name then 1 else 0
  all : record.size = record.names.length
  listed : record.text = record.listing record.names

theorem text_eq_listing (record : Record) : record.text = record.listing record.names := by
  have shown : ∀ name, ((record.map Value.text).find? name).getD "" =
      (record.find? name).elim "" Value.text := by
    intro name
    rw [Fields.find?_map]
    cases record.find? name <;> rfl
  simp only [text, Value.text_struct, Value.recordText, listing, Fields.names_map, shown]

/-- Every struct shows its fields in order, whatever their arrangement. -/
theorem inOrder (record : Record) : record.InOrder where
  increasing := List.pairwise_map.mpr (record.names_increasing.imp Text.bytes_lt_iff.mpr)
  once name := by
    rw [record.nodup_names.count]
    simp only [Fields.mem_names_iff]
  all := record.length_names.symm
  listed := record.text_eq_listing

/-- Two structs that cannot be told apart by what they show of their fields. -/
structure LooksLike (record other : Record) : Prop where
  size : record.size = other.size
  contains : ∀ name, record.contains name = other.contains name
  names : record.names = other.names
  text : record.text = other.text

theorem looksLike_of_alike {record other : Record}
    (alike : (Value.struct record).Alike (.struct other)) : record.LooksLike other := by
  cases alike with
  | plain _ isPlain => exact absurd rfl isPlain
  | struct sameNames sameFields =>
    have names_eq := Fields.names_eq_of_contains sameNames
    refine ⟨?_, sameNames, names_eq, (Value.Alike.struct sameNames sameFields).text_eq⟩
    rw [← record.length_names, names_eq, other.length_names]

end Record

/-- What can be seen of a struct is what was last written to its fields, and not the order of the
writes: not what it shows of its fields, at any depth, and not what it equals. Every struct, one
within another too, shows its fields by increasing names. Structs are equal if they have the same
fields with equal values. Equality is symmetric and transitive, and fails to be reflexive only where
something is not a number. -/
theorem struct_values_are_order_free :
    (∀ (writes : Writes) (name : String),
      (writes.perform {}).find? name = (writes.last? name).map Recipe.build) ∧
    (∀ left right : Writes, Recipe.SameContents (.struct left) (.struct right) →
      (left.perform {}).LooksLike (right.perform {})) ∧
    (∀ fields : Record, fields.InOrder) ∧
    (∀ left left' right right' : Recipe, left.SameContents left' → right.SameContents right' →
      (left.build == right.build) = (left'.build == right'.build)) ∧
    (∀ fields others : Record, (Value.struct fields == .struct others) = true ↔
      fields.Related (fun value other => (value == other) = true) others) ∧
    (∀ left right : Value, (left == right) = (right == left)) ∧
    (∀ left middle right : Value, (left == middle) = true → (middle == right) = true →
      (left == right) = true) ∧
    (∀ value : Value, (value == value) = true ↔
      ∀ number : Float, (Value.float number).Within value → number.isNaN = false) := by
  have symmetric : ∀ left right : Value, left.equal right = right.equal left :=
    fun _ _ => Bool.eq_iff_iff.mpr ⟨Value.equal_symm, Value.equal_symm⟩
  refine ⟨Writes.find?_perform, ?_, Record.inOrder, ?_, ?_, symmetric, ?_, ?_⟩
  · intro left right same
    exact Record.looksLike_of_alike same.alike
  · intro left left' right right' sameLeft sameRight
    calc left.build.equal right.build
        = left'.build.equal right.build := sameLeft.alike.equal_eq _
      _ = right.build.equal left'.build := symmetric _ _
      _ = right'.build.equal left'.build := sameRight.alike.equal_eq _
      _ = left'.build.equal right'.build := symmetric _ _
  · intro fields others
    exact Value.equal_structs_iff
  · intro left middle right
    exact Value.equal_trans
  · intro value
    exact Value.equal_self_iff

section Shapes

/-- The place of a shape, the way up written before the way along. -/
def upThenAlong : Writes :=
  .set (.set .none "up" (.plain (.int 2) nofun)) "along" (.plain (.int 1) nofun)

/-- The place of a shape, the way along written before the way up. -/
def alongThenUp : Writes :=
  .set (.set .none "along" (.plain (.int 1) nofun)) "up" (.plain (.int 2) nofun)

/-- A shape whose size is written before its place. -/
def sizeThenPlace : Writes :=
  .set (.set .none "size" (.plain (.int 3) nofun)) "place" (.struct upThenAlong)

/-- A shape whose place is empty at first and then edited, and whose size is written twice. -/
def placeThenSize : Writes :=
  .update (.inside (.set (.set .none "place" (.struct .none)) "size" (.plain (.int 9) nofun))
    "place" alongThenUp) "size" (.plain (.int 3) nofun)

theorem places_sameContents :
    Recipe.SameContents (.struct upThenAlong) (.struct (Writes.append .none alongThenUp)) := by
  refine .struct (fun name => ?_) (fun name held other heldLast otherLast => ?_)
  · by_cases up : name = "up" <;>
      simp [upThenAlong, alongThenUp, Writes.append, Writes.last?, up]
  · by_cases up : name = "up"
    · simp [upThenAlong, alongThenUp, Writes.append, Writes.last?, up] at heldLast otherLast
      exact heldLast ▸ otherLast ▸ .plain _ _
    · by_cases along : name = "along"
      · simp [upThenAlong, alongThenUp, Writes.append, Writes.last?, along] at heldLast otherLast
        exact heldLast ▸ otherLast ▸ .plain _ _
      · simp [upThenAlong, Writes.last?, up, along] at heldLast

theorem shapes_sameContents :
    Recipe.SameContents (.struct sizeThenPlace) (.struct placeThenSize) := by
  refine .struct (fun name => ?_) (fun name held other heldLast otherLast => ?_)
  · by_cases size : name = "size" <;> simp [sizeThenPlace, placeThenSize, Writes.last?, size]
    split <;> rfl
  · by_cases size : name = "size"
    · simp [sizeThenPlace, placeThenSize, Writes.last?, size] at heldLast otherLast
      exact heldLast ▸ otherLast ▸ .plain _ _
    · by_cases place : name = "place"
      · simp [sizeThenPlace, placeThenSize, Writes.last?, Writes.edit, place] at heldLast otherLast
        exact heldLast ▸ otherLast ▸ places_sameContents
      · simp [sizeThenPlace, Writes.last?, size, place] at heldLast

end Shapes

/-- The fields of the two shapes are arranged otherwise, and look the same. -/
theorem shapes_look_alike :
    Recipe.SameContents (.struct sizeThenPlace) (.struct placeThenSize) ∧
      (sizeThenPlace.perform {}).stored ≠ (placeThenSize.perform {}).stored ∧
      (sizeThenPlace.perform {}).LooksLike (placeThenSize.perform {}) ∧
      (sizeThenPlace.perform {}).text = "\x7bplace: \x7balong: 1, up: 2\x7d, size: 3\x7d" :=
  ⟨shapes_sameContents, by decide, struct_values_are_order_free.2.1 _ _ shapes_sameContents,
    by cbv⟩

end StackLang
