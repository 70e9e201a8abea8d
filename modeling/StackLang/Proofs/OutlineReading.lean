import StackLang.Proofs.PlantedTrees

/-!
# Reading programs off their outlines

Items are planted as their parts are: a function is a node above its statements, a struct type one
above its fields. As a forest can be read off the text of its outline and a program off its forest,
programs, items and statements can be read off the texts of their outlines.
-/

namespace StackLang

open Text

namespace TypedName

/-- A field of a struct type planted before a forest. -/
def forest (field : TypedName) (beside : Forest) : Forest :=
  .node (headed "Field" (some field.text)) .none beside

theorem plants_forest : Forest.Plants forest := by
  intro field beside
  exact ⟨_, rfl, headed_ne_else (by decide) (by decide)⟩

theorem forest_inj {left right : TypedName} {beside beside' : Forest}
    (legible : left.legible = true) (legible' : right.legible = true)
    (same : left.forest beside = right.forest beside') :
    left = right ∧ beside = beside' := by
  obtain ⟨labels, _, rest⟩ := Forest.node.inj same
  have texts := Option.some.inj (headed_inj (by decide) (by decide) labels).2
  exact ⟨text_inj legible legible' texts, rest⟩

theorem labelled_forest {field : TypedName} {beside : Forest} (legible : field.legible = true)
    (labelled : beside.Labelled) : (field.forest beside).Labelled := by
  refine ⟨isLabel_headed (by decide) ?_, Forest.labelled_none, labelled⟩
  rintro _ ⟨⟩
  exact notMem_text legible (by decide) rfl

end TypedName

namespace Item

/-- What stands after its form on the first line of an item. -/
def details? : Item → Option String
  | .function declaration => some declaration.signature
  | .struct declaration => some declaration.name
  | .global statement => statement.details?

/-- An item planted before a forest. -/
def forest : Item → Forest → Forest
  | .function declaration, beside =>
    .node (headed "FunctionDeclaration" (some declaration.signature))
      (declaration.body.foldr Stmt.forest .none) beside
  | .struct declaration, beside =>
    .node (headed "StructDeclaration" (some declaration.name))
      (declaration.fields.foldr TypedName.forest .none) beside
  | .global statement, beside => statement.forest beside

/-- Whether all names in an item are plain and no literal is a floating-point number. -/
def legible : Item → Bool
  | .function declaration => declaration.plainSignature && Stmt.legibleAll declaration.body
  | .struct declaration => isPlainName declaration.name && declaration.fields.all TypedName.legible
  | .global statement => statement.legible

variable {left right item : Item} {beside beside' : Forest}

theorem outline_forest (depth : Nat) (item : Item) (beside : Forest) :
    (item.forest beside).outline depth = item.outline depth ++ beside.outline depth := by
  cases item with
  | function declaration =>
    rw [forest, Forest.outline, outline, Stmt.outlineAll_eq,
      Forest.outline_plantAll fun statement _ => statement.outline_forest (depth + 1)]
    simp only [headed, FunctionDecl.signature, ← String.append_assoc]
    rfl
  | struct declaration =>
    have fields : ∀ field ∈ declaration.fields, ∀ beside,
        (field.forest beside).outline (depth + 1) =
          [⟨depth + 1, "Field " ++ field.text⟩] ++ beside.outline (depth + 1) := fun _ _ _ => rfl
    rw [forest, Forest.outline, outline, List.map_eq_flatMap, Forest.outline_plantAll fields]
    rfl
  | global statement => exact Stmt.outline_forest depth statement beside

theorem labelled_forest (legible : item.legible = true) (labelled : beside.Labelled) :
    (item.forest beside).Labelled := by
  cases item with
  | function declaration =>
    obtain ⟨plain, body⟩ := Bool.and_eq_true_iff.mp legible
    refine ⟨isLabel_headed (by decide) ?_, ?_, labelled⟩
    · rintro _ ⟨⟩
      exact FunctionDecl.newline_notMem_signature plain
    · exact Forest.labelled_plantAll fun statement member _ =>
        Stmt.labelled_forest (Stmt.legibleAll_iff.mp body statement member)
  | struct declaration =>
    obtain ⟨name, fields⟩ := Bool.and_eq_true_iff.mp legible
    refine ⟨isLabel_headed (by decide) ?_, ?_, labelled⟩
    · rintro _ ⟨⟩
      exact notMem_plainName name rfl
    · exact Forest.labelled_plantAll fun field member _ =>
        TypedName.labelled_forest (List.all_eq_true.mp fields field member)
  | global statement => exact Stmt.labelled_forest legible labelled

theorem isForm_form (item : Item) : isForm item.form = true := by
  cases item with
  | function declaration => exact (by decide : isForm "FunctionDeclaration" = true)
  | struct declaration => exact (by decide : isForm "StructDeclaration" = true)
  | global statement => exact statement.isForm_form

theorem head?_forest (item : Item) (beside : Forest) :
    (item.forest beside).head? = some (headed item.form item.details?) := by
  cases item with
  | global statement => exact Stmt.head?_forest statement beside
  | _ => rfl

theorem plants_forest : Forest.Plants forest := by
  intro item beside
  refine ⟨_, head?_forest item beside, headed_ne_else item.isForm_form ?_⟩
  cases item with
  | global statement => exact statement.form_ne.1
  | _ => simp [form]

theorem form_eq_of_forest_eq (same : left.forest beside = right.forest beside') :
    left.form = right.form :=
  form_unique left.isForm_form right.isForm_form (head?_forest left beside)
    (same ▸ head?_forest right beside')

/-- An item can be read off a forest that begins with it, if no second branch follows. -/
theorem forest_inj (legible : left.legible = true) (legible' : right.legible = true)
    (noElse : beside.NoElse) (noElse' : beside'.NoElse)
    (same : left.forest beside = right.forest beside') : left = right ∧ beside = beside' := by
  have sameForm := form_eq_of_forest_eq same
  cases left with
  | function declaration =>
    cases right with
    | function declaration' =>
      obtain ⟨plain, body⟩ := Bool.and_eq_true_iff.mp legible
      obtain ⟨plain', body'⟩ := Bool.and_eq_true_iff.mp legible'
      obtain ⟨labels, below, rfl⟩ := Forest.node.inj same
      have signatures := Option.some.inj (headed_inj (by decide) (by decide) labels).2
      obtain ⟨names, parameters, types⟩ := FunctionDecl.signature_inj plain plain' signatures
      have bodies := Forest.plantAll_inj Stmt.plants_forest
        (fun statement member other member' _ _ =>
          Stmt.forest_inj (Stmt.legibleAll_iff.mp body statement member)
            (Stmt.legibleAll_iff.mp body' other member')) below
      cases declaration
      cases declaration'
      cases names
      cases parameters
      cases types
      cases bodies
      exact ⟨rfl, rfl⟩
    | struct declaration' => simp [form] at sameForm
    | global statement => exact absurd sameForm.symm statement.form_ne.2.1
  | struct declaration =>
    cases right with
    | function declaration' => simp [form] at sameForm
    | struct declaration' =>
      obtain ⟨_, fields⟩ := Bool.and_eq_true_iff.mp legible
      obtain ⟨_, fields'⟩ := Bool.and_eq_true_iff.mp legible'
      obtain ⟨labels, below, rfl⟩ := Forest.node.inj same
      have names := Option.some.inj (headed_inj (by decide) (by decide) labels).2
      have fieldsSame := Forest.plantAll_inj TypedName.plants_forest
        (fun field member other member' _ _ _ _ =>
          TypedName.forest_inj (List.all_eq_true.mp fields field member)
            (List.all_eq_true.mp fields' other member')) below
      cases declaration
      cases declaration'
      cases names
      cases fieldsSame
      exact ⟨rfl, rfl⟩
    | global statement => exact absurd sameForm.symm statement.form_ne.2.2
  | global statement =>
    cases right with
    | function declaration' => exact absurd sameForm statement.form_ne.2.1
    | struct declaration' => exact absurd sameForm statement.form_ne.2.2
    | global statement' =>
      obtain ⟨rfl, rest⟩ := Stmt.forest_inj legible legible' noElse noElse' same
      exact ⟨rfl, rest⟩

theorem eq_of_written_eq (legible : left.legible = true) (legible' : right.legible = true)
    (same : OutlineLine.renderAll (left.outline 0) = OutlineLine.renderAll (right.outline 0)) :
    left = right := by
  have outlines : ∀ item : Item, item.outline 0 = (item.forest .none).outline 0 :=
    fun item => ((item.outline_forest 0 .none).trans (List.append_nil _)).symm
  rw [outlines, outlines] at same
  have forests := Forest.written_inj (labelled_forest legible Forest.labelled_none)
    (labelled_forest legible' Forest.labelled_none) same
  exact (forest_inj legible legible' Forest.noElse_none Forest.noElse_none forests).1

end Item

namespace Program

/-- The forest of a program. -/
def forest (program : Program) : Forest :=
  .node "Program" (program.items.foldr Item.forest .none) .none

/-- Whether all names in a program are plain and no literal is a floating-point number. -/
def legible (program : Program) : Bool :=
  program.items.all Item.legible

variable {left right : Program}

theorem outline_forest (program : Program) : program.forest.outline 0 = program.outline := by
  rw [forest, Forest.outline, outline, Forest.outline_plantAll fun item _ => item.outline_forest 1]
  exact congrArg _ (List.append_nil _)

theorem labelled_forest (program : Program) (legible : program.legible = true) :
    program.forest.Labelled :=
  ⟨isLabel_form (by decide), Forest.labelled_plantAll fun item member _ =>
    Item.labelled_forest (List.all_eq_true.mp legible item member), Forest.labelled_none⟩

theorem forest_inj (legible : left.legible = true) (legible' : right.legible = true)
    (same : left.forest = right.forest) : left = right := by
  obtain ⟨_, below, _⟩ := Forest.node.inj same
  have items := Forest.plantAll_inj Item.plants_forest (fun item member other member' _ _ =>
    Item.forest_inj (List.all_eq_true.mp legible item member)
      (List.all_eq_true.mp legible' other member')) below
  cases left
  cases right
  exact congrArg Program.mk items

theorem eq_of_written_eq (legible : left.legible = true) (legible' : right.legible = true)
    (same : OutlineLine.renderAll left.outline = OutlineLine.renderAll right.outline) :
    left = right := by
  rw [← outline_forest, ← outline_forest] at same
  exact forest_inj legible legible'
    (Forest.written_inj (left.labelled_forest legible) (right.labelled_forest legible') same)

end Program

/-- Statements, items and programs can be read off the texts of their outlines, if no name in them
has blanks, commas or parentheses and no literal is a floating-point number. -/
theorem outlines_are_unambiguous :
    (∀ left right : Stmt, left.legible = true → right.legible = true →
      OutlineLine.renderAll (left.outline 0) = OutlineLine.renderAll (right.outline 0) →
      left = right) ∧
    (∀ left right : Item, left.legible = true → right.legible = true →
      OutlineLine.renderAll (left.outline 0) = OutlineLine.renderAll (right.outline 0) →
      left = right) ∧
    (∀ left right : Program, left.legible = true → right.legible = true →
      OutlineLine.renderAll left.outline = OutlineLine.renderAll right.outline → left = right) := by
  refine ⟨?_, ?_, ?_⟩
  · intro left right legible legible' same
    -- A statement has the outline of the item that it is.
    have items : Item.global left = .global right := Item.eq_of_written_eq legible legible' same
    exact Item.global.inj items
  · intro left right legible legible' same
    exact Item.eq_of_written_eq legible legible' same
  · intro left right legible legible' same
    exact Program.eq_of_written_eq legible legible' same

section SecondBranches

/-- A second branch that belongs to the inner of two conditionals. -/
def innerElse : Stmt :=
  .conditional (.identifier "outer")
    (.conditional (.identifier "inner") (.returning none) (some (.block []))) none

/-- A second branch that belongs to the outer of two conditionals. -/
def outerElse : Stmt :=
  .conditional (.identifier "outer") (.conditional (.identifier "inner") (.returning none) none)
    (some (.block []))

end SecondBranches

/-- A second branch tells by its depth to which conditional it belongs, and a path is read as it is
written. -/
theorem second_branches_are_told_apart :
    innerElse.legible = true ∧ outerElse.legible = true ∧
      OutlineLine.renderAll (innerElse.outline 0) ≠ OutlineLine.renderAll (outerElse.outline 0) ∧
      Stmt.expression (.chain "point" ["x"]) =
        .expression (.member (.identifier "point") "x") := by
  refine ⟨by decide, by decide, ?_, ?_⟩
  · intro same
    nomatch outlines_are_unambiguous.1 innerElse outerElse (by decide) (by decide) same
  · exact outlines_are_unambiguous.1 _ _ (by decide) (by decide) (by decide +kernel)

end StackLang
