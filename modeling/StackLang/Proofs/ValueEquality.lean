import Mathlib.Data.List.Perm.Subperm
import StackLang.Value.Basic

/-!
# Equality of values

Floating-point numbers are equal as numbers: the two zeros are equal, and what is not a number is
equal to nothing (`compare_eq_iff`). Values inherit this at every depth, since structs are equal
field by field. So equality is symmetric and transitive, and a value equals itself unless something
within it is not a number (`equal_self_iff`).
-/

namespace StackLang

namespace FloatEquality

open Float.Model

/-- The number that stands for all that are equal to a given one; none if that is not a number. -/
def number? : UnpackedFloat → Option UnpackedFloat
  | .notANumber => none
  | .zero _ => some (.zero .positive)
  | other => some other

theorem compare_finite_eq_iff {sign : UnpackedFloat.Sign} {mantissa mantissa' : Nat}
    {exponent exponent' : Int} {positive : 0 < mantissa} {positive' : 0 < mantissa'} :
    (compare exponent exponent').then (compare mantissa mantissa') = .eq ↔
      number? (.finite sign mantissa exponent positive) =
        number? (.finite sign mantissa' exponent' positive') := by
  rw [Ordering.then_eq_eq, Int.compare_eq_eq, Nat.compare_eq_eq]
  constructor
  · rintro ⟨rfl, rfl⟩
    rfl
  · intro same
    cases same
    exact ⟨rfl, rfl⟩

theorem compare_eq_iff (left right : UnpackedFloat) :
    left.compare right = some .eq ↔ number? left = number? right ∧ number? left ≠ none := by
  -- Numbers of different forms or signs are never equal, save for the two zeros.
  cases left with
  | notANumber => exact iff_of_false nofun fun same => same.2 rfl
  | infinity sign =>
    cases right with
    | infinity sign' =>
      cases sign <;> cases sign'
      case positive.positive | negative.negative => exact iff_of_true rfl ⟨rfl, nofun⟩
      all_goals exact iff_of_false nofun fun same => nomatch same.1
    | _ => cases sign <;> exact iff_of_false nofun fun same => nomatch same.1
  | zero sign =>
    cases right with
    | zero sign' => exact iff_of_true rfl ⟨rfl, nofun⟩
    | notANumber => exact iff_of_false nofun fun same => nomatch same.1
    | infinity sign' | finite sign' =>
      cases sign' <;> exact iff_of_false nofun fun same => nomatch same.1
  | finite sign mantissa exponent positive =>
    cases right with
    | notANumber => exact iff_of_false nofun fun same => nomatch same.1
    | zero => cases sign <;> exact iff_of_false nofun fun same => nomatch same.1
    | infinity sign' => cases sign' <;> exact iff_of_false nofun fun same => nomatch same.1
    | finite sign' mantissa' exponent' positive' =>
      cases sign <;> cases sign'
      case positive.positive =>
        rw [← compare_finite_eq_iff, and_iff_left nofun]
        exact Option.some_inj
      case negative.negative =>
        rw [← compare_finite_eq_iff, and_iff_left nofun, ← Ordering.swap_eq_eq]
        exact Option.some_inj
      all_goals exact iff_of_false nofun fun same => nomatch same.1

theorem equal_iff {left right : Float} :
    (left == right) = true ↔ number? left.toModel.unpack = number? right.toModel.unpack ∧
      number? left.toModel.unpack ≠ none := by
  rw [← compare_eq_iff, ← beq_iff_eq (a := UnpackedFloat.compare _ _)]
  rfl

theorem isNaN_iff {number : Float} :
    number.isNaN = true ↔ number? number.toModel.unpack = none := by
  change number.toModel.unpack.isNaN = true ↔ _
  cases number.toModel.unpack with
  | notANumber => exact iff_of_true rfl rfl
  | _ => exact iff_of_false nofun nofun

theorem equal_symm {left right : Float} (same : (left == right) = true) :
    (right == left) = true := by
  obtain ⟨number_eq, isNumber⟩ := equal_iff.mp same
  exact equal_iff.mpr ⟨number_eq.symm, number_eq ▸ isNumber⟩

theorem equal_trans {left middle right : Float} (first : (left == middle) = true)
    (second : (middle == right) = true) : (left == right) = true := by
  obtain ⟨first_eq, isNumber⟩ := equal_iff.mp first
  obtain ⟨second_eq, _⟩ := equal_iff.mp second
  exact equal_iff.mpr ⟨first_eq.trans second_eq, isNumber⟩

theorem equal_self_iff {number : Float} : (number == number) = true ↔ number.isNaN = false := by
  rw [equal_iff, ← Bool.not_eq_true, isNaN_iff]
  exact and_iff_right rfl

end FloatEquality

namespace Fields

variable {α β : Type}

/-- Fields of which there are equally many have the same names if those of the one are among those
of the other. -/
theorem contains_eq_of_size {left : Fields α} {right : Fields β} (size_eq : left.size = right.size)
    (among : ∀ name, left.contains name = true → right.contains name = true) (name : String) :
    left.contains name = right.contains name := by
  have within : left.stored.Subperm right.stored := by
    refine List.subperm_of_subset left.slots.nodup fun name stored => ?_
    exact contains_iff_mem_stored.mp (among name (contains_iff_mem_stored.mpr stored))
  have same := within.perm_of_length_le (Nat.le_of_eq size_eq.symm)
  rw [Bool.eq_iff_iff, contains_iff_mem_stored, contains_iff_mem_stored]
  exact same.mem_iff

theorem size_eq_of_contains {left : Fields α} {right : Fields β}
    (same : ∀ name, left.contains name = right.contains name) : left.size = right.size := by
  refine (List.perm_ext_iff_of_nodup left.slots.nodup right.slots.nodup).mpr ?_ |>.length_eq
  intro name
  rw [← contains_iff_mem_stored, ← contains_iff_mem_stored, same]

theorem exists_of_contains_eq {left : Fields α} {right : Fields β} {name : String} {content : α}
    (same : left.contains name = right.contains name) (found : left.find? name = some content) :
    ∃ other, right.find? name = some other := by
  rw [contains, found] at same
  exact Option.isSome_iff_exists.mp same.symm

/-- Fields have the same names, and what is under a name in the one is related to what is under it
in the other. -/
structure Related (relation : α → β → Prop) (left : Fields α) (right : Fields β) : Prop where
  names : ∀ name, left.contains name = right.contains name
  contents : ∀ name content other, left.find? name = some content →
    right.find? name = some other → relation content other

theorem Related.exists_of_find? {relation : α → β → Prop} {left : Fields α} {right : Fields β}
    (related : Related relation left right) {name : String} {content : α}
    (found : left.find? name = some content) :
    ∃ other, right.find? name = some other ∧ relation content other := by
  obtain ⟨other, foundOther⟩ := exists_of_contains_eq (related.names name) found
  exact ⟨other, foundOther, related.contents name content other found foundOther⟩

/-- Fields may be exchanged for others that have the same names and whose contents are related to
more. -/
theorem Related.exchange {relation : α → β → Prop} {left other : Fields α} {right : Fields β}
    (related : Related relation left right)
    (names : ∀ name, left.contains name = other.contains name)
    (contents : ∀ name content content', left.find? name = some content →
      other.find? name = some content' → ∀ last, relation content last → relation content' last) :
    Related relation other right where
  names name := (names name).symm.trans (related.names name)
  contents := by
    intro name content' last foundOther foundLast
    obtain ⟨content, found⟩ := exists_of_contains_eq (names name).symm foundOther
    exact contents name content content' found foundOther last
      (related.contents name content last found foundLast)

/-- It is enough to look up the fields of the one if there are as many in the other. -/
theorem related_iff {relation : α → β → Prop} {left : Fields α} {right : Fields β} :
    Related relation left right ↔ left.size = right.size ∧
      ∀ name content, left.find? name = some content →
        ∃ other, right.find? name = some other ∧ relation content other := by
  constructor
  · intro related
    exact ⟨size_eq_of_contains related.names, fun _ _ found => related.exists_of_find? found⟩
  · rintro ⟨size_eq, each⟩
    refine ⟨contains_eq_of_size size_eq ?_, ?_⟩
    · intro name present
      obtain ⟨content, found⟩ := Option.isSome_iff_exists.mp present
      obtain ⟨other, foundOther, _⟩ := each name content found
      exact Option.isSome_iff_exists.mpr ⟨other, foundOther⟩
    · intro name content other found foundOther
      obtain ⟨same, foundSame, relates⟩ := each name content found
      cases foundOther.symm.trans foundSame
      exact relates

end Fields

namespace Value

/-- A value is another one or stands within a field of it, at any depth. -/
inductive Within (inner : Value) : Value → Prop where
  | itself : Within inner inner
  | field {fields : Record} {name : String} {value : Value}
      (found : fields.find? name = some value) (deeper : Within inner value) :
      Within inner (.struct fields)

/-- Prove a property of all values from the values of their fields. -/
@[elab_as_elim]
theorem induction {motive : Value → Prop} (none : motive .none)
    (int : ∀ number, motive (.int number)) (float : ∀ number, motive (.float number))
    (string : ∀ text, motive (.string text)) (bool : ∀ truth, motive (.bool truth))
    (struct : ∀ fields : Record, (∀ name value, fields.find? name = some value → motive value) →
      motive (.struct fields)) (value : Value) : motive value := by
  refine @Value.rec motive
    (fun fields => ∀ name value, fields.find? name = some value → motive value)
    (fun _ slots => ∀ name value, slots.find? name = some value → motive value)
    none int float string bool struct (fun _ each => each) ?_ ?_ value
  · intro name value absent
    cases absent
  · intro _ name fresh content rest first others query value found
    rw [Slots.find?] at found
    split at found
    · cases found
      exact first
    · exact others query value found

variable {left middle right value : Value}

section Forms

theorem equal_none_iff : equal .none right = true ↔ .none = right := by
  cases right with
  | none => exact iff_of_true rfl rfl
  | _ => exact iff_of_false nofun nofun

theorem equal_int_iff {number : Int64} :
    equal (.int number) right = true ↔ .int number = right := by
  cases right with
  | int other =>
    rw [Value.int.injEq]
    exact beq_iff_eq
  | _ => exact iff_of_false nofun nofun

theorem equal_float_iff {number : Float} :
    equal (.float number) right = true ↔
      ∃ other, right = .float other ∧ (number == other) = true := by
  constructor
  · intro same
    cases right with
    | float other => exact ⟨other, rfl, same⟩
    | _ => nomatch same
  · rintro ⟨other, rfl, same⟩
    exact same

theorem equal_string_iff {text : String} :
    equal (.string text) right = true ↔ .string text = right := by
  cases right with
  | string other =>
    rw [Value.string.injEq]
    exact beq_iff_eq
  | _ => exact iff_of_false nofun nofun

theorem equal_bool_iff {truth : Bool} :
    equal (.bool truth) right = true ↔ .bool truth = right := by
  cases right with
  | bool other =>
    rw [Value.bool.injEq]
    exact beq_iff_eq
  | _ => exact iff_of_false nofun nofun

theorem agrees_iff {names : List String} {slots : Slots Value names} {others : Record} :
    agrees slots others = true ↔ ∀ name value, slots.find? name = some value →
      ∃ other, others.find? name = some other ∧ value.equal other = true := by
  induction slots with
  | nil => exact iff_of_true rfl nofun
  | @cons names first fresh content rest inductionHypothesis =>
    rw [agrees, Bool.and_eq_true, Option.any_eq_true, inductionHypothesis]
    constructor
    · rintro ⟨here, later⟩ name value found
      rw [Slots.find?] at found
      split at found
      · next same =>
        cases found
        exact same ▸ here
      · exact later name value found
    · intro each
      refine ⟨each first content (if_pos rfl), fun name value found => each name value ?_⟩
      -- The first name does not come again, so what is found later is not hidden.
      have different : name ≠ first := by
        rintro rfl
        cases found.symm.trans (rest.find?_fresh fresh)
      rw [Slots.find?, if_neg different, found]

/-- Structs are equal if they have the same fields and equal values in them. -/
theorem equal_structs_iff {fields others : Record} :
    equal (.struct fields) (.struct others) = true ↔
      Fields.Related (fun value other => value.equal other = true) fields others := by
  rw [Fields.related_iff]
  change (fields.size == others.size && agrees fields.slots others) = true ↔ _
  rw [Bool.and_eq_true, beq_iff_eq, agrees_iff]
  rfl

theorem equal_struct_iff {fields : Record} :
    equal (.struct fields) right = true ↔ ∃ others : Record, right = .struct others ∧
      Fields.Related (fun value other => value.equal other = true) fields others := by
  constructor
  · intro same
    cases right with
    | struct others => exact ⟨others, rfl, equal_structs_iff.mp same⟩
    | _ => nomatch same
  · rintro ⟨others, rfl, related⟩
    exact equal_structs_iff.mpr related

end Forms

theorem equal_symm (same : left.equal right = true) : right.equal left = true := by
  induction left using induction generalizing right with
  | none => exact equal_none_iff.mp same ▸ same
  | int number => exact equal_int_iff.mp same ▸ same
  | float number =>
    obtain ⟨other, rfl, numbers⟩ := equal_float_iff.mp same
    exact FloatEquality.equal_symm numbers
  | string text => exact equal_string_iff.mp same ▸ same
  | bool truth => exact equal_bool_iff.mp same ▸ same
  | struct fields each =>
    obtain ⟨others, rfl, related⟩ := equal_struct_iff.mp same
    refine equal_struct_iff.mpr ⟨fields, rfl, fun name => (related.names name).symm, ?_⟩
    intro name other value foundOther found
    exact each name value found (related.contents name value other found foundOther)

theorem equal_trans (first : left.equal middle = true) (second : middle.equal right = true) :
    left.equal right = true := by
  induction left using induction generalizing middle right with
  | none => exact equal_none_iff.mp first ▸ second
  | int number => exact equal_int_iff.mp first ▸ second
  | float number =>
    obtain ⟨other, rfl, numbers⟩ := equal_float_iff.mp first
    obtain ⟨last, rfl, numbers'⟩ := equal_float_iff.mp second
    exact FloatEquality.equal_trans numbers numbers'
  | string text => exact equal_string_iff.mp first ▸ second
  | bool truth => exact equal_bool_iff.mp first ▸ second
  | struct fields each =>
    obtain ⟨others, rfl, related⟩ := equal_struct_iff.mp first
    obtain ⟨last, rfl, onward⟩ := equal_struct_iff.mp second
    refine equal_struct_iff.mpr
      ⟨last, rfl, fun name => (related.names name).trans (onward.names name), ?_⟩
    intro name value ending found foundLast
    obtain ⟨other, foundOther, value_eq⟩ := related.exists_of_find? found
    exact each name value found value_eq (onward.contents name other ending foundOther foundLast)

/-- A value equals itself exactly if everything within it that should be a number is one. -/
theorem equal_self_iff : value.equal value = true ↔
    ∀ number, (Value.float number).Within value → number.isNaN = false := by
  induction value using induction with
  | none => exact ⟨fun _ _ within => (nomatch within), fun _ => rfl⟩
  | int number => exact ⟨fun _ _ within => (nomatch within), fun _ => equal_int_iff.mpr rfl⟩
  | float number =>
    change (number == number) = true ↔ _
    rw [FloatEquality.equal_self_iff]
    constructor
    · intro isNumber other within
      cases within
      exact isNumber
    · intro all
      exact all number .itself
  | string text => exact ⟨fun _ _ within => (nomatch within), fun _ => equal_string_iff.mpr rfl⟩
  | bool truth => exact ⟨fun _ _ within => (nomatch within), fun _ => equal_bool_iff.mpr rfl⟩
  | struct fields each =>
    constructor
    · intro same number within
      obtain ⟨_, ⟨⟩, related⟩ := equal_struct_iff.mp same
      cases within with
      | field found deeper =>
        exact (each _ _ found).mp (related.contents _ _ _ found found) number deeper
    · intro all
      refine equal_struct_iff.mpr ⟨fields, rfl, fun _ => rfl, ?_⟩
      intro name value same found foundAgain
      cases found.symm.trans foundAgain
      exact (each name value found).mpr fun number deeper => all number (.field found deeper)

end Value

end StackLang
