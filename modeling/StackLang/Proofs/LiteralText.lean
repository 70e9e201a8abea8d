import StackLang.Tree.Expr
import StackLang.Value.Text

/-!
# Reading literals back

The text of a literal that is not a floating-point number tells which literal it is
(`Literal.text_inj`), and it stands on one line (`Literal.newline_notMem_text`). Digits of a number
determine it in every base up to sixteen (`toDigits_inj`), which serves decimal numbers and the
numbers of escaped characters alike, and no escape begins another one (`escape_append_inj`).
-/

namespace StackLang

namespace Text

/-- A list is cut in one way only into members with a property and a rest that begins with none. -/
theorem cut_unique {α : Type} {holds : α → Prop} {front front' behind behind' : List α}
    (inside : ∀ member ∈ front, holds member) (inside' : ∀ member ∈ front', holds member)
    (ends : ∀ next ∈ behind.head?, ¬ holds next) (ends' : ∀ next ∈ behind'.head?, ¬ holds next)
    (same : front ++ behind = front' ++ behind') : front = front' ∧ behind = behind' := by
  induction front generalizing front' with
  | nil =>
    cases front' with
    | nil => exact ⟨rfl, same⟩
    | cons first rest =>
      subst same
      exact absurd (inside' first List.mem_cons_self) (ends first rfl)
  | cons first rest inductionHypothesis =>
    cases front' with
    | nil =>
      rw [List.nil_append] at same
      subst same
      exact absurd (inside first List.mem_cons_self) (ends' first rfl)
    | cons first' rest' =>
      obtain ⟨rfl, restSame⟩ := List.cons.inj same
      obtain ⟨rfl, rfl⟩ := inductionHypothesis (List.forall_mem_cons.mp inside).2
        (List.forall_mem_cons.mp inside').2 restSame
      exact ⟨rfl, rfl⟩

/-- A list is cut in one way only at the first place of a given member. -/
theorem cut_at_unique {α : Type} {mark : α} {front front' behind behind' : List α}
    (absent : mark ∉ front) (absent' : mark ∉ front')
    (same : front ++ mark :: behind = front' ++ mark :: behind') :
    front = front' ∧ behind = behind' := by
  have cut : front = front' ∧ mark :: behind = mark :: behind' :=
    cut_unique (fun member found => ne_of_mem_of_not_mem found absent)
      (fun member found => ne_of_mem_of_not_mem found absent')
      (fun next head different => different (Option.some.inj head).symm)
      (fun next head different => different (Option.some.inj head).symm) same
  exact ⟨cut.1, (List.cons.inj cut.2).2⟩

section Digits

variable {base number other : Nat} {character : Char}

theorem digitChar_inj {digit digit' : Nat} (small : digit < 16) (small' : digit' < 16)
    (same : digit.digitChar = digit'.digitChar) : digit = digit' := by
  have table : ∀ first second : Fin 16, first.val.digitChar = second.val.digitChar →
      first = second := by decide
  exact congrArg Fin.val (table ⟨digit, small⟩ ⟨digit', small'⟩ same)

theorem toDigits_inj (several : 1 < base) (atMost : base ≤ 16)
    (same : Nat.toDigits base number = Nat.toDigits base other) : number = other := by
  induction number using Nat.strongRecOn generalizing other with
  | _ number inductionHypothesis =>
    have lastSmall : ∀ number : Nat, number % base < 16 := fun number =>
      Nat.lt_of_lt_of_le (Nat.mod_lt number (by omega)) atMost
    rw [Nat.toDigits_eq_if several, Nat.toDigits_eq_if (n := other) several] at same
    by_cases small : number < base <;> by_cases small' : other < base
    · rw [if_pos small, if_pos small'] at same
      exact digitChar_inj (by omega) (by omega) (List.cons.inj same).1
    · rw [if_pos small, if_neg small'] at same
      have longer : [] ++ [number.digitChar] = _ := same
      exact absurd (List.append_inj' longer rfl).1.symm Nat.toDigits_ne_nil
    · rw [if_neg small, if_pos small'] at same
      have longer : _ = [] ++ [other.digitChar] := same
      exact absurd (List.append_inj' longer rfl).1 Nat.toDigits_ne_nil
    · rw [if_neg small, if_neg small'] at same
      obtain ⟨fronts, lasts⟩ := List.append_inj' same rfl
      have quotients : number / base = other / base :=
        inductionHypothesis _ (Nat.div_lt_self (by omega) several) fronts
      have remainders : number % base = other % base :=
        digitChar_inj (lastSmall number) (lastSmall other) (List.cons.inj lasts).1
      rw [← Nat.div_add_mod number base, ← Nat.div_add_mod other base, quotients, remainders]

theorem notMem_toDigits (several : 1 < base)
    (notDigit : ∀ digit < base, digit.digitChar ≠ character) :
    character ∉ Nat.toDigits base number := by
  induction number using Nat.strongRecOn with
  | _ number inductionHypothesis =>
    rw [Nat.toDigits_eq_if several]
    split
    · next small =>
      rw [List.mem_singleton]
      exact (notDigit number small).symm
    · next large =>
      rw [List.mem_append, List.mem_singleton, not_or]
      exact ⟨inductionHypothesis _ (Nat.div_lt_self (by omega) several),
        (notDigit _ (Nat.mod_lt number (by omega))).symm⟩

end Digits

section Quotes

variable {character : Char}

/-- The character that a letter after a backslash stands for. -/
def marked : Char → Char
  | 't' => '\t'
  | 'r' => '\r'
  | 'n' => '\n'
  | '0' => '\x00'
  | other => other

/-- An escape is a character that stands for itself, a backslash with a letter, or a backslash with
the number of the character. -/
theorem escape_cases (character : Char) :
    (escape character = [character] ∧ character ≠ '\\' ∧ character ≠ '\n') ∨
    (∃ mark, escape character = ['\\', mark] ∧ mark ≠ 'u' ∧ mark ≠ '\n' ∧
      marked mark = character) ∨
    escape character = '\\' :: 'u' :: '\x7b' :: (Nat.toDigits 16 character.toNat ++ ['\x7d']) := by
  unfold escape
  split
  · exact .inr (.inl ⟨'"', rfl, by decide, by decide, rfl⟩)
  · exact .inr (.inl ⟨'\\', rfl, by decide, by decide, rfl⟩)
  · exact .inr (.inl ⟨'t', rfl, by decide, by decide, rfl⟩)
  · exact .inr (.inl ⟨'r', rfl, by decide, by decide, rfl⟩)
  · exact .inr (.inl ⟨'n', rfl, by decide, by decide, rfl⟩)
  · exact .inr (.inl ⟨'0', rfl, by decide, by decide, rfl⟩)
  · next notBackslash _ _ notNewline _ =>
    split
    · exact .inr (.inr rfl)
    · exact .inl ⟨rfl, notBackslash, notNewline⟩

/-- No escape begins another one. -/
theorem escape_append_inj {other : Char} {rest rest' : List Char}
    (same : escape character ++ rest = escape other ++ rest') :
    character = other ∧ rest = rest' := by
  rcases escape_cases character with ⟨shape, plain, _⟩ | ⟨mark, shape, notNumber, _, meant⟩ |
      shape <;>
    rcases escape_cases other with ⟨shape', plain', _⟩ | ⟨mark', shape', notNumber', _, meant'⟩ |
      shape' <;>
    rw [shape, shape'] at same <;>
    obtain ⟨first, same⟩ := List.cons.inj same
  -- Escapes of different shapes differ in their first or in their second character.
  · exact ⟨first, same⟩
  · exact absurd first plain
  · exact absurd first plain
  · exact absurd first.symm plain'
  · obtain ⟨rfl, restSame⟩ := List.cons.inj same
    exact ⟨meant.symm.trans meant', restSame⟩
  · exact absurd (List.cons.inj same).1 notNumber
  · exact absurd first.symm plain'
  · exact absurd (List.cons.inj same).1.symm notNumber'
  · have digits : Nat.toDigits 16 character.toNat ++ '\x7d' :: rest =
        Nat.toDigits 16 other.toNat ++ '\x7d' :: rest' := by
      simpa using same
    have notDigit : ∀ digit < 16, digit.digitChar ≠ '\x7d' := by decide
    obtain ⟨digits_eq, rest_eq⟩ := cut_at_unique
      (notMem_toDigits (by decide) notDigit)
      (notMem_toDigits (by decide) notDigit) digits
    exact ⟨Char.toNat_inj.mp (toDigits_inj (by decide) (by decide) digits_eq), rest_eq⟩

theorem escape_ne_nil (character : Char) : escape character ≠ [] := by
  rcases escape_cases character with ⟨shape, _⟩ | ⟨_, shape, _⟩ | shape <;>
    exact shape ▸ List.cons_ne_nil _ _

theorem newline_notMem_escape (character : Char) : '\n' ∉ escape character := by
  rcases escape_cases character with ⟨shape, _, plain⟩ | ⟨mark, shape, _, plain, _⟩ | shape
  · rw [shape, List.mem_singleton]
    exact plain.symm
  · simp [shape, plain.symm]
  · have notDigit : '\n' ∉ Nat.toDigits 16 character.toNat :=
      notMem_toDigits (by decide) (by decide)
    simp [shape, notDigit]

theorem escapeAll_inj {left right : List Char} (same : left.flatMap escape = right.flatMap escape) :
    left = right := by
  induction left generalizing right with
  | nil =>
    cases right with
    | nil => rfl
    | cons first rest => exact absurd (List.append_eq_nil_iff.mp same.symm).1 (escape_ne_nil first)
  | cons first rest inductionHypothesis =>
    cases right with
    | nil => exact absurd (List.append_eq_nil_iff.mp same).1 (escape_ne_nil first)
    | cons first' rest' =>
      obtain ⟨rfl, restSame⟩ := escape_append_inj same
      rw [inductionHypothesis restSame]

/-- Quoted texts are equal only if the texts are. -/
theorem quoted_inj {left right : String} (same : quoted left = quoted right) : left = right := by
  have bodies := (String.append_right_inj _).mp ((String.append_left_inj _).mp same)
  exact String.toList_inj.mp (escapeAll_inj (String.ofList_injective bodies))

theorem newline_notMem_quoted (text : String) : '\n' ∉ (quoted text).toList := by
  simp [quoted, newline_notMem_escape]

theorem quote_mem_quoted (text : String) : '"' ∈ (quoted text).toList := by
  simp [quoted]

end Quotes

end Text

namespace Value

open Text

variable {number other : Int64} {character : Char}

theorem toList_intText (number : Int64) : (intText number).toList =
    if number.toInt < 0 then '-' :: Nat.toDigits 10 number.toInt.natAbs
    else Nat.toDigits 10 number.toInt.natAbs := by
  change (Int.repr number.toInt).toList = _
  cases number.toInt with
  | ofNat count =>
    have notNegative : ¬ Int.ofNat count < 0 := Int.not_lt.mpr (Int.natCast_nonneg count)
    rw [if_neg notNegative, Int.repr, Nat.repr_eq_ofList_toDigits, String.toList_ofList]
    rfl
  | negSucc count =>
    rw [if_pos (Int.negSucc_lt_zero count), Int.repr, String.toList_append,
      Nat.repr_eq_ofList_toDigits]
    exact congrArg ('-' :: ·) String.toList_ofList

theorem intText_inj (same : intText number = intText other) : number = other := by
  have minus_notMem : ∀ count : Nat, '-' ∉ Nat.toDigits 10 count := fun count =>
    notMem_toDigits (by decide) (by decide)
  have texts := congrArg String.toList same
  rw [toList_intText, toList_intText] at texts
  refine Int64.toInt.inj ?_
  by_cases negative : number.toInt < 0 <;> by_cases negative' : other.toInt < 0
  · rw [if_pos negative, if_pos negative'] at texts
    have sizes := toDigits_inj (by decide) (by decide) (List.cons.inj texts).2
    omega
  · rw [if_pos negative, if_neg negative'] at texts
    exact absurd (texts ▸ List.mem_cons_self) (minus_notMem _)
  · rw [if_neg negative, if_pos negative'] at texts
    exact absurd (texts ▸ List.mem_cons_self) (minus_notMem _)
  · rw [if_neg negative, if_neg negative'] at texts
    have sizes := toDigits_inj (by decide) (by decide) texts
    omega

theorem notMem_intText (number : Int64) (notMinus : character ≠ '-')
    (notDigit : ∀ digit < 10, digit.digitChar ≠ character) :
    character ∉ (intText number).toList := by
  have notMem : character ∉ Nat.toDigits 10 number.toInt.natAbs :=
    notMem_toDigits (by decide) notDigit
  rw [toList_intText]
  split
  · rw [List.mem_cons, not_or]
    exact ⟨notMinus, notMem⟩
  · exact notMem

theorem truthText_inj : ∀ truth other : Bool, truthText truth = truthText other →
    truth = other := by
  decide

theorem intText_ne_quoted (number : Int64) (text : String) : intText number ≠ quoted text := by
  intro same
  exact notMem_intText number (by decide) (by decide) (same ▸ quote_mem_quoted text)

theorem intText_ne_truthText (number : Int64) (truth : Bool) :
    intText number ≠ truthText truth := by
  intro same
  have letter : 'e' ∈ (truthText truth).toList := by cases truth <;> decide
  exact notMem_intText number (by decide) (by decide) (same ▸ letter)

theorem quoted_ne_truthText (text : String) (truth : Bool) : quoted text ≠ truthText truth := by
  intro same
  have noQuote : '"' ∉ (truthText truth).toList := by cases truth <;> decide
  exact noQuote (same ▸ quote_mem_quoted text)

end Value

namespace Literal

/-- Whether a literal is not a floating-point number. -/
def isExact : Literal → Bool
  | .float _ => false
  | _ => true

/-- The text of a literal. -/
def text (literal : Literal) : String :=
  literal.toValue.text

variable {left right : Literal}

theorem newline_notMem_text (exact : left.isExact = true) : '\n' ∉ left.text.toList := by
  cases left with
  | int number => exact Value.notMem_intText number (by decide) (by decide)
  | float number => nomatch exact
  | string text => exact Text.newline_notMem_quoted text
  | bool truth => cases truth <;> decide

/-- Texts of exact literals are equal only if the literals are. -/
theorem text_inj (exact : left.isExact = true) (exact' : right.isExact = true)
    (same : left.text = right.text) : left = right := by
  cases left with
  | int number =>
    cases right with
    | int other => exact congrArg Literal.int (Value.intText_inj same)
    | float other => nomatch exact'
    | string text => exact absurd same (Value.intText_ne_quoted number text)
    | bool truth => exact absurd same (Value.intText_ne_truthText number truth)
  | float number => nomatch exact
  | string text =>
    cases right with
    | int other => exact absurd same.symm (Value.intText_ne_quoted other text)
    | float other => nomatch exact'
    | string text' => exact congrArg Literal.string (Text.quoted_inj same)
    | bool truth => exact absurd same (Value.quoted_ne_truthText text truth)
  | bool truth =>
    cases right with
    | int other => exact absurd same.symm (Value.intText_ne_truthText other truth)
    | float other => nomatch exact'
    | string text => exact absurd same.symm (Value.quoted_ne_truthText text truth)
    | bool truth' => exact congrArg Literal.bool (Value.truthText_inj _ _ same)

end Literal

end StackLang
