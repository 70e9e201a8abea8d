import StackLang.Proofs.LiteralText
import StackLang.Tree.Outline

/-!
# Outlines of forests

Outlines show forests: nodes with labels, each with the nodes below it and the nodes beside it.
Lines can be told apart by their ends and their depths by the indentation, as long as labels have
neither (`OutlineLine.renderAll_inj`), and what is below a node is the lines that are deeper than it
(`Forest.outline_inj`). So a forest can be read off its outline (`Forest.written_inj`). How the
trees of a program can be read off their forests is another matter, for which `Forest.plantAll_inj`
says that it is enough to read them one by one.
-/

namespace StackLang

/-- A text that stands on one line and is not indented. -/
structure Text.IsLabel (text : String) : Prop where
  oneLine : '\n' ∉ text.toList
  notIndented : text.toList.head? ≠ some ' '

theorem Text.IsLabel.append {beginning ending : String} (label : IsLabel beginning)
    (nonempty : beginning ≠ "") (oneLine : '\n' ∉ ending.toList) :
    IsLabel (beginning ++ ending) where
  oneLine := by
    rw [String.toList_append, List.mem_append, not_or]
    exact ⟨label.oneLine, oneLine⟩
  notIndented := by
    have notIndented := label.notIndented
    rw [String.toList_append]
    cases characters : beginning.toList with
    | nil => exact absurd (String.toList_eq_nil_iff.mp characters) nonempty
    | cons first rest =>
      rw [characters] at notIndented
      exact notIndented

namespace OutlineLine

open Text

theorem toList_render (line : OutlineLine) : line.render.toList =
    (List.replicate (2 * line.depth) ' ' ++ line.text.toList) ++ ['\n'] := by
  simp [render]

theorem render_append_inj {line other : OutlineLine} {rest rest' : List Char}
    (label : IsLabel line.text) (label' : IsLabel other.text)
    (same : line.render.toList ++ rest = other.render.toList ++ rest') :
    line = other ∧ rest = rest' := by
  have oneLine : ∀ line : OutlineLine, IsLabel line.text →
      '\n' ∉ List.replicate (2 * line.depth) ' ' ++ line.text.toList := by
    intro line label
    rw [List.mem_append, not_or]
    exact ⟨fun newline => absurd (List.eq_of_mem_replicate newline) (by decide), label.oneLine⟩
  have ends : ∀ line : OutlineLine, IsLabel line.text →
      ∀ first ∈ line.text.toList.head?, ¬ first = ' ' := by
    rintro line label first head rfl
    exact label.notIndented head
  simp only [toList_render, List.append_assoc _ ['\n'], List.singleton_append] at same
  obtain ⟨lines, rest_eq⟩ := cut_at_unique (oneLine line label) (oneLine other label') same
  obtain ⟨spaces, texts⟩ := cut_unique (fun _ => List.eq_of_mem_replicate)
    (fun _ => List.eq_of_mem_replicate) (ends line label) (ends other label') lines
  have depth_eq : line.depth = other.depth := by
    have lengths := (List.replicate_inj.mp spaces).1
    omega
  obtain ⟨depth, text⟩ := line
  obtain ⟨depth', text'⟩ := other
  obtain rfl : depth = depth' := depth_eq
  obtain rfl : text = text' := String.toList_inj.mp texts
  exact ⟨rfl, rest_eq⟩

/-- Labelled lines can be read off their text. -/
theorem renderAll_inj {lines others : List OutlineLine}
    (labels : ∀ line ∈ lines, IsLabel line.text) (labels' : ∀ line ∈ others, IsLabel line.text)
    (same : renderAll lines = renderAll others) : lines = others := by
  have nonempty : ∀ line : OutlineLine, line.render.toList ≠ [] := by
    intro line
    rw [toList_render]
    exact List.append_ne_nil_of_right_ne_nil _ (List.cons_ne_nil _ _)
  have texts := congrArg String.toList same
  simp only [renderAll, String.toList_join, List.flatMap_map] at texts
  clear same
  induction lines generalizing others with
  | nil =>
    cases others with
    | nil => rfl
    | cons other rest => exact absurd (List.append_eq_nil_iff.mp texts.symm).1 (nonempty other)
  | cons line rest inductionHypothesis =>
    cases others with
    | nil => exact absurd (List.append_eq_nil_iff.mp texts).1 (nonempty line)
    | cons other rest' =>
      obtain ⟨label, restLabels⟩ := List.forall_mem_cons.mp labels
      obtain ⟨label', restLabels'⟩ := List.forall_mem_cons.mp labels'
      obtain ⟨rfl, restTexts⟩ := render_append_inj label label' texts
      rw [inductionHypothesis restLabels restLabels' restTexts]

end OutlineLine

/-- Nodes with labels. -/
inductive Forest where
  /-- No nodes. -/
  | none
  /-- A node before others, with the nodes below it and the nodes beside it. -/
  | node (label : String) (below beside : Forest)

namespace Forest

/-- The outline of a forest. -/
def outline (depth : Nat) : Forest → List OutlineLine
  | .none => []
  | .node label below beside =>
    ⟨depth, label⟩ :: (below.outline (depth + 1) ++ beside.outline depth)

/-- The label of the first node. -/
def head? : Forest → Option String
  | .none => Option.none
  | .node label _ _ => some label

/-- Every label stands on one line and is not indented. -/
def Labelled : Forest → Prop
  | .none => True
  | .node label below beside => Text.IsLabel label ∧ below.Labelled ∧ beside.Labelled

theorem labelled_none : Forest.none.Labelled :=
  True.intro

variable {forest other : Forest} {depth : Nat}

theorem depth_le_of_mem_outline {line : OutlineLine} (member : line ∈ forest.outline depth) :
    depth ≤ line.depth := by
  induction forest generalizing depth with
  | none => nomatch member
  | node label below beside belowHypothesis besideHypothesis =>
    rw [outline, List.mem_cons, List.mem_append] at member
    rcases member with rfl | inBelow | inBeside
    · exact Nat.le_refl _
    · exact Nat.le_of_succ_le (belowHypothesis inBelow)
    · exact besideHypothesis inBeside

theorem depth_eq_of_head_outline {line : OutlineLine}
    (first : line ∈ (forest.outline depth).head?) : line.depth = depth := by
  cases forest with
  | none => nomatch first
  | node label below beside =>
    cases first
    rfl

/-- A forest can be read off the lines of its outline. -/
theorem outline_inj (same : forest.outline depth = other.outline depth) : forest = other := by
  induction forest generalizing depth other with
  | none =>
    cases other with
    | none => rfl
    | node label below beside => nomatch same
  | node label below beside belowHypothesis besideHypothesis =>
    cases other with
    | none => nomatch same
    | node label' below' beside' =>
      obtain ⟨first, others⟩ := List.cons.inj same
      obtain rfl : label = label' := congrArg OutlineLine.text first
      -- The lines below the first node are the ones that are deeper than it.
      have deeper : ∀ forest : Forest, ∀ line ∈ forest.outline (depth + 1), depth < line.depth :=
        fun _ _ member => depth_le_of_mem_outline member
      have ends : ∀ forest : Forest, ∀ line ∈ (forest.outline depth).head?, ¬ depth < line.depth :=
        fun _ _ first => depth_eq_of_head_outline first ▸ Nat.lt_irrefl _
      obtain ⟨belowSame, besideSame⟩ := Text.cut_unique (deeper below) (deeper below')
        (ends beside) (ends beside') others
      rw [belowHypothesis belowSame, besideHypothesis besideSame]

theorem Labelled.isLabel (labelled : forest.Labelled) {line : OutlineLine}
    (member : line ∈ forest.outline depth) : Text.IsLabel line.text := by
  induction forest generalizing depth with
  | none => nomatch member
  | node label below beside belowHypothesis besideHypothesis =>
    obtain ⟨isLabel, belowLabelled, besideLabelled⟩ := labelled
    rw [outline, List.mem_cons, List.mem_append] at member
    rcases member with rfl | inBelow | inBeside
    · exact isLabel
    · exact belowHypothesis belowLabelled inBelow
    · exact besideHypothesis besideLabelled inBeside

/-- A forest can be read off the text of its outline. -/
theorem written_inj (labelled : forest.Labelled) (labelled' : other.Labelled)
    (same : OutlineLine.renderAll (forest.outline depth) =
      OutlineLine.renderAll (other.outline depth)) : forest = other :=
  outline_inj (OutlineLine.renderAll_inj (fun _ => labelled.isLabel) (fun _ => labelled'.isLabel)
    same)

section Planting

variable {α : Type} {plant : α → Forest → Forest} {left right : List α}

/-- The forest does not begin with the second branch of a conditional. -/
def NoElse (forest : Forest) : Prop :=
  forest.head? ≠ some "Else"

theorem noElse_none : Forest.none.NoElse :=
  nofun

/-- Trees that are planted before a forest begin with a node of their own. -/
def Plants (plant : α → Forest → Forest) : Prop :=
  ∀ tree beside, ∃ label, (plant tree beside).head? = some label ∧ label ≠ "Else"

theorem Plants.ne_none (plants : Plants plant) (tree : α) (beside : Forest) :
    plant tree beside ≠ .none := by
  intro nothing
  obtain ⟨label, head, _⟩ := plants tree beside
  rw [nothing] at head
  nomatch head

theorem Plants.noElse (plants : Plants plant) (tree : α) (beside : Forest) :
    (plant tree beside).NoElse := by
  obtain ⟨label, head, notElse⟩ := plants tree beside
  exact fun isElse => notElse (Option.some.inj (head.symm.trans isElse))

theorem Plants.noElse_all (plants : Plants plant) (trees : List α) :
    (trees.foldr plant .none).NoElse := by
  cases trees with
  | nil => exact noElse_none
  | cons tree rest => exact plants.noElse tree _

/-- Trees that can be read off a forest one by one can be read off it all together. -/
theorem plantAll_inj (plants : Plants plant)
    (each : ∀ tree ∈ left, ∀ other ∈ right, ∀ beside beside', beside.NoElse → beside'.NoElse →
      plant tree beside = plant other beside' → tree = other ∧ beside = beside')
    (same : left.foldr plant .none = right.foldr plant .none) : left = right := by
  induction left generalizing right with
  | nil =>
    cases right with
    | nil => rfl
    | cons other rest => exact absurd same.symm (plants.ne_none other _)
  | cons tree rest inductionHypothesis =>
    cases right with
    | nil => exact absurd same (plants.ne_none tree _)
    | cons other rest' =>
      obtain ⟨rfl, restSame⟩ := each tree List.mem_cons_self other List.mem_cons_self _ _
        (plants.noElse_all rest) (plants.noElse_all rest') same
      rw [inductionHypothesis (fun tree member other member' =>
        each tree (List.mem_cons_of_mem _ member) other (List.mem_cons_of_mem _ member')) restSame]

theorem labelled_plantAll {trees : List α}
    (each : ∀ tree ∈ trees, ∀ beside, beside.Labelled → (plant tree beside).Labelled) :
    (trees.foldr plant .none).Labelled := by
  induction trees with
  | nil => exact labelled_none
  | cons tree rest inductionHypothesis =>
    obtain ⟨first, others⟩ := List.forall_mem_cons.mp each
    exact first _ (inductionHypothesis others)

theorem outline_plantAll {outlineOf : α → List OutlineLine} {trees : List α}
    (each : ∀ tree ∈ trees, ∀ beside,
      (plant tree beside).outline depth = outlineOf tree ++ beside.outline depth) :
    (trees.foldr plant .none).outline depth = trees.flatMap outlineOf := by
  induction trees with
  | nil => rfl
  | cons tree rest inductionHypothesis =>
    obtain ⟨first, others⟩ := List.forall_mem_cons.mp each
    rw [List.foldr_cons, first, inductionHypothesis others, List.flatMap_cons]

end Planting

end Forest

end StackLang
