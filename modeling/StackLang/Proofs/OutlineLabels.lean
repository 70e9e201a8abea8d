import StackLang.Proofs.OutlineForests

/-!
# Texts on the lines of outlines

A line of an outline names the form of a node and possibly says more about it. The two can be told
apart (`headed_inj`), because no form has a space, and what is said can be read back: operators from
their symbols, names with their types (`TypedName.text_inj`), and the signatures of functions
(`FunctionDecl.signature_inj`), as long as names have no blanks, commas and parentheses.
-/

namespace StackLang

namespace Text

/-- Whether a name has no blanks, no commas and no parentheses. -/
def isPlainName (name : String) : Bool :=
  name.toList.all fun character => !(character.isWhitespace || [',', '(', ')'].contains character)

theorem notMem_plainName {name : String} {character : Char} (plain : isPlainName name = true)
    (excluded : (character.isWhitespace || [',', '(', ')'].contains character) = true) :
    character ∉ name.toList := by
  intro member
  have included := List.all_eq_true.mp plain character member
  rw [excluded] at included
  nomatch included

/-- Whether a text can name the form of a node: it consists of letters. -/
def isForm (form : String) : Bool :=
  form != "" && form.toList.all Char.isAlpha

theorem notMem_form {form : String} {character : Char} (isForm : isForm form = true)
    (noLetter : character.isAlpha = false) : character ∉ form.toList := by
  intro member
  have letter := List.all_eq_true.mp (Bool.and_eq_true_iff.mp isForm).2 character member
  rw [noLetter] at letter
  nomatch letter

theorem isLabel_form {form : String} (isForm : isForm form = true) : IsLabel form where
  oneLine := notMem_form isForm (by decide)
  notIndented first := notMem_form isForm (by decide) (List.mem_of_mem_head? first)

/-- The text on a line: the form of a node and possibly more about it. -/
def headed (form : String) : Option String → String
  | none => form
  | some details => form ++ " " ++ details

theorem toList_headed (form : String) (details : Option String) : (headed form details).toList =
    form.toList ++ details.elim [] fun details => ' ' :: details.toList := by
  cases details with
  | none => exact (List.append_nil _).symm
  | some details => simp [headed]

/-- The form and the rest can be read off the text on a line, since no form has a space. -/
theorem headed_inj {form form' : String} {details details' : Option String}
    (isForm : isForm form = true) (isForm' : Text.isForm form' = true)
    (same : headed form details = headed form' details') : form = form' ∧ details = details' := by
  have ends : ∀ details : Option String,
      ∀ first ∈ (details.elim [] fun details => ' ' :: details.toList).head?, ¬ first ≠ ' ' := by
    intro details first head
    cases details with
    | none => nomatch head
    | some details => exact fun different => different (Option.some.inj head).symm
  have texts := congrArg String.toList same
  rw [toList_headed, toList_headed] at texts
  obtain ⟨forms, rests⟩ := cut_unique
    (fun _ found => ne_of_mem_of_not_mem found (notMem_form isForm (by decide)))
    (fun _ found => ne_of_mem_of_not_mem found (notMem_form isForm' (by decide)))
    (ends details) (ends details') texts
  refine ⟨String.toList_inj.mp forms, ?_⟩
  cases details with
  | none =>
    cases details' with
    | none => rfl
    | some details' => nomatch rests
  | some details =>
    cases details' with
    | none => nomatch rests
    | some details' => exact congrArg some (String.toList_inj.mp (List.cons.inj rests).2)

theorem form_unique {forest : Forest} {form form' : String} {details details' : Option String}
    (isForm : isForm form = true) (isForm' : Text.isForm form' = true)
    (head : forest.head? = some (headed form details))
    (head' : forest.head? = some (headed form' details')) : form = form' :=
  (headed_inj isForm isForm' (Option.some.inj (head.symm.trans head'))).1

theorem headed_ne_else {form : String} {details : Option String} (isForm : isForm form = true)
    (notElse : form ≠ "Else") : headed form details ≠ "Else" := by
  intro isElse
  have forms : form = "Else" ∧ details = none := headed_inj isForm (by decide) isElse
  exact notElse forms.1

theorem isLabel_headed {form : String} {details : Option String} (isForm : isForm form = true)
    (oneLine : ∀ text ∈ details, '\n' ∉ text.toList) : IsLabel (headed form details) := by
  cases details with
  | none => exact isLabel_form isForm
  | some details =>
    rw [headed, String.append_assoc]
    refine (isLabel_form isForm).append (bne_iff_ne.mp (Bool.and_eq_true_iff.mp isForm).1) ?_
    simpa using oneLine details rfl

/-- Texts, each behind a comma and a space. -/
def listed (texts : List (List Char)) : List Char :=
  texts.flatMap ([',', ' '] ++ ·)

theorem intercalate_cons (text : List Char) (rest : List (List Char)) :
    [',', ' '].intercalate (text :: rest) = text ++ listed rest := by
  induction rest generalizing text with
  | nil => rw [List.intercalate_singleton, listed, List.flatMap_nil, List.append_nil]
  | cons next others inductionHypothesis =>
    rw [List.intercalate_cons_cons, inductionHypothesis, listed, listed, List.flatMap_cons,
      List.append_assoc, List.append_assoc]

theorem notMem_intercalate {texts : List (List Char)} {character : Char}
    (notComma : character ≠ ',') (notSpace : character ≠ ' ')
    (absent : ∀ text ∈ texts, character ∉ text) : character ∉ [',', ' '].intercalate texts := by
  cases texts with
  | nil => exact List.not_mem_nil
  | cons text rest =>
    obtain ⟨first, others⟩ := List.forall_mem_cons.mp absent
    rw [intercalate_cons, List.mem_append, not_or]
    refine ⟨first, fun member => ?_⟩
    obtain ⟨other, found, inside⟩ := List.mem_flatMap.mp member
    simp [notComma, notSpace, others other found] at inside

theorem append_listed_inj {text text' : List Char} {rest rest' : List (List Char)}
    (noComma : ',' ∉ text) (noComma' : ',' ∉ text')
    (same : text ++ listed rest = text' ++ listed rest') :
    text = text' ∧ listed rest = listed rest' := by
  have ends : ∀ texts : List (List Char), ∀ first ∈ (listed texts).head?, ¬ first ≠ ',' := by
    intro texts first head
    cases texts with
    | nil => nomatch head
    | cons text rest => exact fun different => different (Option.some.inj head).symm
  exact cut_unique (fun _ found => ne_of_mem_of_not_mem found noComma)
    (fun _ found => ne_of_mem_of_not_mem found noComma') (ends rest) (ends rest') same

theorem listed_inj {left right : List (List Char)} (noComma : ∀ text ∈ left, ',' ∉ text)
    (noComma' : ∀ text ∈ right, ',' ∉ text) (same : listed left = listed right) : left = right := by
  induction left generalizing right with
  | nil =>
    cases right with
    | nil => rfl
    | cons text rest => nomatch same
  | cons text rest inductionHypothesis =>
    cases right with
    | nil => nomatch same
    | cons text' rest' =>
      obtain ⟨first, others⟩ := List.forall_mem_cons.mp noComma
      obtain ⟨first', others'⟩ := List.forall_mem_cons.mp noComma'
      obtain ⟨rfl, rests⟩ := append_listed_inj first first'
        (List.cons.inj (List.cons.inj same).2).2
      rw [inductionHypothesis others others' rests]

/-- Texts can be read off the list of them, if there are no commas in them and none is empty. -/
theorem intercalate_inj {left right : List (List Char)}
    (plain : ∀ text ∈ left, ',' ∉ text ∧ text ≠ [])
    (plain' : ∀ text ∈ right, ',' ∉ text ∧ text ≠ [])
    (same : [',', ' '].intercalate left = [',', ' '].intercalate right) : left = right := by
  cases left with
  | nil =>
    cases right with
    | nil => rfl
    | cons text rest =>
      rw [intercalate_cons] at same
      exact absurd (List.append_eq_nil_iff.mp same.symm).1 (plain' text List.mem_cons_self).2
  | cons text rest =>
    cases right with
    | nil =>
      rw [intercalate_cons] at same
      exact absurd (List.append_eq_nil_iff.mp same).1 (plain text List.mem_cons_self).2
    | cons text' rest' =>
      obtain ⟨first, others⟩ := List.forall_mem_cons.mp plain
      obtain ⟨first', others'⟩ := List.forall_mem_cons.mp plain'
      rw [intercalate_cons, intercalate_cons] at same
      obtain ⟨rfl, rests⟩ := append_listed_inj first.1 first'.1 same
      rw [listed_inj (fun text member => (others text member).1)
        (fun text member => (others' text member).1) rests]

end Text

open Text

namespace BinaryOp

theorem mem_all (operator : BinaryOp) : operator ∈ all := by
  cases operator with
  | evaluated operator =>
    exact List.mem_append_left _ (List.mem_map_of_mem (Operator.mem_all operator))
  | _ => decide

theorem ofSymbol?_symbol (operator : BinaryOp) : ofSymbol? operator.symbol = some operator := by
  have each : ∀ operator ∈ all, ofSymbol? operator.symbol = some operator := by decide
  exact each operator (mem_all operator)

theorem symbol_inj {left right : BinaryOp} (same : left.symbol = right.symbol) : left = right := by
  have found := ofSymbol?_symbol left
  rw [same, ofSymbol?_symbol] at found
  exact (Option.some.inj found).symm

theorem newline_notMem_symbol (operator : BinaryOp) : '\n' ∉ operator.symbol.toList := by
  have each : ∀ operator ∈ all, '\n' ∉ operator.symbol.toList := by decide
  exact each operator (mem_all operator)

end BinaryOp

namespace TypedName

variable {left right typed : TypedName}

/-- Whether a name and the name of its type are plain. -/
def legible (typed : TypedName) : Bool :=
  isPlainName typed.type && isPlainName typed.name

theorem toList_text (typed : TypedName) :
    typed.text.toList = typed.type.toList ++ ' ' :: typed.name.toList := by
  simp [text]

theorem text_inj (legible : left.legible = true) (legible' : right.legible = true)
    (same : left.text = right.text) : left = right := by
  have texts := congrArg String.toList same
  rw [toList_text, toList_text] at texts
  obtain ⟨types, names⟩ := cut_at_unique
    (notMem_plainName (Bool.and_eq_true_iff.mp legible).1 rfl)
    (notMem_plainName (Bool.and_eq_true_iff.mp legible').1 rfl) texts
  obtain ⟨type, name⟩ := left
  obtain ⟨type', name'⟩ := right
  obtain rfl : type = type' := String.toList_inj.mp types
  obtain rfl : name = name' := String.toList_inj.mp names
  rfl

theorem notMem_text (legible : typed.legible = true) {character : Char} (notSpace : character ≠ ' ')
    (excluded : (character.isWhitespace || [',', '(', ')'].contains character) = true) :
    character ∉ typed.text.toList := by
  obtain ⟨type, name⟩ := Bool.and_eq_true_iff.mp legible
  rw [toList_text, List.mem_append, List.mem_cons, not_or, not_or]
  exact ⟨notMem_plainName type excluded, notSpace, notMem_plainName name excluded⟩

theorem texts_inj {left right : List TypedName} (legible : ∀ typed ∈ left, typed.legible = true)
    (legible' : ∀ typed ∈ right, typed.legible = true)
    (same : left.map (·.text.toList) = right.map (·.text.toList)) : left = right := by
  induction left generalizing right with
  | nil => exact (List.map_eq_nil_iff.mp same.symm).symm
  | cons typed rest inductionHypothesis =>
    cases right with
    | nil => nomatch same
    | cons typed' rest' =>
      obtain ⟨first, others⟩ := List.forall_mem_cons.mp legible
      obtain ⟨first', others'⟩ := List.forall_mem_cons.mp legible'
      obtain ⟨texts, rests⟩ := List.cons.inj same
      rw [text_inj first first' (String.toList_inj.mp texts),
        inductionHypothesis others others' rests]

end TypedName

namespace FunctionDecl

variable {left right declaration : FunctionDecl}

/-- What stands after its form on the line of a function. -/
def signature (declaration : FunctionDecl) : String :=
  declaration.name ++ "(" ++ ", ".intercalate (declaration.parameters.map TypedName.text)
    ++ ") -> " ++ declaration.returnType

/-- Whether the names in the signature of a function are plain. -/
def plainSignature (declaration : FunctionDecl) : Bool :=
  isPlainName declaration.name && declaration.parameters.all TypedName.legible
    && isPlainName declaration.returnType

/-- The parameters between the parentheses. -/
def parameterText (declaration : FunctionDecl) : List Char :=
  [',', ' '].intercalate (declaration.parameters.map (·.text.toList))

theorem toList_signature (declaration : FunctionDecl) : declaration.signature.toList =
    declaration.name.toList ++ '(' :: (declaration.parameterText ++
      ')' :: ([' ', '-', '>', ' '] ++ declaration.returnType.toList)) := by
  simp [signature, parameterText, String.toList_intercalate, Function.comp_def]

theorem legible_of_mem (plain : declaration.plainSignature = true) {parameter : TypedName}
    (member : parameter ∈ declaration.parameters) : parameter.legible = true := by
  obtain ⟨front, _⟩ := Bool.and_eq_true_iff.mp plain
  exact List.all_eq_true.mp (Bool.and_eq_true_iff.mp front).2 parameter member

theorem notMem_parameterText (plain : declaration.plainSignature = true) {character : Char}
    (notComma : character ≠ ',') (notSpace : character ≠ ' ')
    (excluded : (character.isWhitespace || [',', '(', ')'].contains character) = true) :
    character ∉ declaration.parameterText := by
  refine notMem_intercalate notComma notSpace fun text member => ?_
  obtain ⟨parameter, found, rfl⟩ := List.mem_map.mp member
  exact TypedName.notMem_text (legible_of_mem plain found) notSpace excluded

theorem parameterText_inj (plain : left.plainSignature = true)
    (plain' : right.plainSignature = true) (same : left.parameterText = right.parameterText) :
    left.parameters = right.parameters := by
  have texts : ∀ declaration : FunctionDecl, declaration.plainSignature = true →
      ∀ text ∈ declaration.parameters.map (·.text.toList), ',' ∉ text ∧ text ≠ [] := by
    intro declaration plain text member
    obtain ⟨parameter, found, rfl⟩ := List.mem_map.mp member
    refine ⟨TypedName.notMem_text (legible_of_mem plain found) (by decide) rfl, ?_⟩
    simp [TypedName.toList_text]
  exact TypedName.texts_inj (fun _ => legible_of_mem plain) (fun _ => legible_of_mem plain')
    (intercalate_inj (texts left plain) (texts right plain') same)

/-- A signature tells the names and types that stand in it. -/
theorem signature_inj (plain : left.plainSignature = true) (plain' : right.plainSignature = true)
    (same : left.signature = right.signature) : left.name = right.name ∧
      left.parameters = right.parameters ∧ left.returnType = right.returnType := by
  have texts := congrArg String.toList same
  rw [toList_signature, toList_signature] at texts
  have noParenthesis : ∀ declaration : FunctionDecl, declaration.plainSignature = true →
      '(' ∉ declaration.name.toList := by
    intro declaration plain
    obtain ⟨front, _⟩ := Bool.and_eq_true_iff.mp plain
    exact notMem_plainName (Bool.and_eq_true_iff.mp front).1 rfl
  obtain ⟨names, rests⟩ :=
    cut_at_unique (noParenthesis left plain) (noParenthesis right plain') texts
  obtain ⟨parameters, types⟩ := cut_at_unique
    (notMem_parameterText plain (by decide) (by decide) rfl)
    (notMem_parameterText plain' (by decide) (by decide) rfl) rests
  exact ⟨String.toList_inj.mp names, parameterText_inj plain plain' parameters,
    String.toList_inj.mp (List.append_cancel_left types)⟩

theorem newline_notMem_signature (plain : declaration.plainSignature = true) :
    '\n' ∉ declaration.signature.toList := by
  obtain ⟨front, returnType⟩ := Bool.and_eq_true_iff.mp plain
  have inName : '\n' ∉ declaration.name.toList :=
    notMem_plainName (Bool.and_eq_true_iff.mp front).1 rfl
  have inParameters : '\n' ∉ declaration.parameterText :=
    notMem_parameterText plain (by decide) (by decide) rfl
  have inType : '\n' ∉ declaration.returnType.toList := notMem_plainName returnType rfl
  rw [toList_signature]
  simp [inName, inParameters, inType]

end FunctionDecl

end StackLang
