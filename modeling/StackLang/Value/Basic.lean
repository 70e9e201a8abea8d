import StackLang.Fields
import StackLang.RunError

/-!
# Values

What the machine computes with. Values are passed by copy, so a struct is its fields and nothing
else. The arrangement of the fields depends on the order in which they were stored; equality looks
each field up instead.
-/

namespace StackLang

/-- A value. -/
inductive Value where
  /-- The absence of a value. -/
  | none
  /-- An integer of 64 bits. -/
  | int (number : Int64)
  /-- A floating-point number of 64 bits. -/
  | float (number : Float)
  /-- A text. -/
  | string (text : String)
  /-- A truth value. -/
  | bool (truth : Bool)
  /-- A struct with named fields. -/
  | struct (fields : Fields Value)

/-- The fields of a struct. -/
abbrev Record := Fields Value

instance : Inhabited Value := ⟨.none⟩

namespace Value

/-- The kind of a value. -/
def kind : Value → Kind
  | .none => .none
  | .int _ => .int
  | .float _ => .float
  | .string _ => .string
  | .bool _ => .bool
  | .struct _ => .struct

/-- The value a variable of the given kind holds before anything is stored in it. -/
def zero : Kind → Value
  | .none => .none
  | .int => .int 0
  | .float => .float 0.0
  | .string => .string ""
  | .bool => .bool false
  | .struct => .struct {}

@[simp] theorem kind_zero (kind : Kind) : (zero kind).kind = kind := by
  cases kind <;> rfl

/-- Whether a value is of the given kind. -/
def isKind (value : Value) (kind : Kind) : Bool :=
  value.kind == kind

/-- The integer of a value. -/
def asInt : Value → Except RunError Int64
  | .int number => .ok number
  | other => .error (.typeMismatch .int other.kind)

/-- The floating-point number of a value. -/
def asFloat : Value → Except RunError Float
  | .float number => .ok number
  | other => .error (.typeMismatch .float other.kind)

/-- The text of a value. -/
def asString : Value → Except RunError String
  | .string text => .ok text
  | other => .error (.typeMismatch .string other.kind)

/-- The truth value of a value. -/
def asBool : Value → Except RunError Bool
  | .bool truth => .ok truth
  | other => .error (.typeMismatch .bool other.kind)

/-- The fields of a value. -/
def asStruct : Value → Except RunError Record
  | .struct fields => .ok fields
  | other => .error (.typeMismatch .struct other.kind)

/-- Whether a value that stands as a condition holds. Truth values and integers are conditions. -/
def asCondition : Value → Except RunError Bool
  | .bool truth => .ok truth
  | .int number => .ok (number != 0)
  | other => .error (.typeMismatch .bool other.kind)

/-- Put new contents of the same kind in the place of a value. -/
def replace (value contents : Value) : Except RunError Value :=
  if value.kind = contents.kind then .ok contents
  else .error (.typeMismatch contents.kind value.kind)

/-- The value of a kind given by name: the given contents, which must be of that kind, or else the
value a variable of that kind starts with. -/
def ofKindName (name : String) (contents : Option Value) : Except RunError Value :=
  match Kind.ofName? name, contents with
  | Option.none, _ => .error (.invalidTypeName name)
  | some kind, Option.none => .ok (zero kind)
  | some kind, some value =>
    if value.kind = kind then .ok value else .error (.typeMismatch kind value.kind)

mutual

/-- Whether two values are equal: of one kind and with equal contents, where floating-point numbers
compare as numbers and structs field by field. -/
def equal : Value → Value → Bool
  | .none, .none => true
  | .int left, .int right => left == right
  | .float left, .float right => left == right
  | .string left, .string right => left == right
  | .bool left, .bool right => left == right
  | .struct ⟨left⟩, .struct right => (Fields.mk left).size == right.size && agrees left right
  | _, _ => false

/-- Whether each field has an equal field of its name among others. -/
def agrees : {names : List String} → Slots Value names → Fields Value → Bool
  | _, .nil, _ => true
  | _, .cons name _ value rest, others =>
    (others.find? name).any (fun other => equal value other) && agrees rest others

end

instance : BEq Value := ⟨equal⟩

end Value

namespace Record

/-- The value of a field. -/
def field (record : Record) (name : String) : Except RunError Value :=
  match record.find? name with
  | some value => .ok value
  | none => .error (.undefinedField name)

/-- Store into a field that is already there, and leave a struct without it alone. -/
def update (record : Record) (name : String) (value : Value) : Record :=
  if record.contains name then record.insert name value else record

end Record

end StackLang
