/-!
# The order of texts

Texts compare by their code points, and by the bytes of their UTF-8 encodings in the same way: of
two characters the one with the greater number also has the greater encoding, and already within the
bytes that both encodings have (`encode_append_lt`), so that nothing that follows matters. A common
beginning does not matter either.
-/

namespace StackLang.Text

/-- The bytes of a text in UTF-8. -/
def bytes (text : String) : List UInt8 :=
  text.toUTF8.data.toList

/-- The numbers of the characters of a text. -/
def codePoints (text : String) : List Nat :=
  text.toList.map Char.toNat

theorem bytes_eq (text : String) : bytes text = text.toList.flatMap String.utf8EncodeChar := by
  rw [bytes, String.toUTF8_eq_toByteArray, ← String.utf8Encode_toList, List.utf8Encode,
    List.toList_data_toByteArray]

/-- Of two lists of bytes, given as numbers, the one that is less in front is less. -/
theorem ofNat_cons_lt {first second : Nat} {behind behind' : List UInt8} (small : second < 256)
    (least : first ≤ second) (tied : first = second → behind < behind') :
    UInt8.ofNat first :: behind < UInt8.ofNat second :: behind' := by
  rcases Nat.lt_or_eq_of_le least with before | same
  · apply List.Lex.rel
    rw [UInt8.lt_iff_toNat_lt, UInt8.toNat_ofNat_of_lt' (Nat.lt_trans before small),
      UInt8.toNat_ofNat_of_lt' small]
    exact before
  · subst same
    exact List.Lex.cons (tied rfl)

theorem toNat_lt (character : Char) : character.val.toNat < 0x110000 := by
  rcases character.valid with low | high
  · exact Nat.lt_trans low (by decide)
  · exact high.2

/-- The encodings of two characters are in the order of the characters, whatever comes behind them.
Encodings of one length agree in the kinds of their bytes and differ in a digit to the base 64;
encodings of two lengths differ in their first byte. -/
theorem encode_append_lt {first second : Char} (before : first < second)
    (behind behind' : List UInt8) :
    String.utf8EncodeChar first ++ behind < String.utf8EncodeChar second ++ behind' := by
  have numbers : first.val.toNat < second.val.toNat := before
  have bound := toNat_lt second
  fun_cases String.utf8EncodeChar first <;> fun_cases String.utf8EncodeChar second
  case case2.case2 =>
    exact ofNat_cons_lt (by omega) (by omega) fun _ =>
      ofNat_cons_lt (by omega) (by omega) (by omega)
  case case3.case3 =>
    exact ofNat_cons_lt (by omega) (by omega) fun _ =>
      ofNat_cons_lt (by omega) (by omega) fun _ =>
        ofNat_cons_lt (by omega) (by omega) (by omega)
  case case4.case4 =>
    exact ofNat_cons_lt (by omega) (by omega) fun _ =>
      ofNat_cons_lt (by omega) (by omega) fun _ =>
        ofNat_cons_lt (by omega) (by omega) fun _ =>
          ofNat_cons_lt (by omega) (by omega) (by omega)
  all_goals exact ofNat_cons_lt (by omega) (by omega) (by omega)

theorem encodeAll_lt {left right : List Char} (before : left < right) :
    left.flatMap String.utf8EncodeChar < right.flatMap String.utf8EncodeChar := by
  induction before with
  | nil =>
    rw [List.flatMap_nil, List.flatMap_cons]
    cases encoding : String.utf8EncodeChar _ with
    | nil => exact absurd encoding String.utf8EncodeChar_ne_nil
    | cons byte rest => exact List.nil_lt_cons _ _
  | rel less =>
    rw [List.flatMap_cons, List.flatMap_cons]
    exact encode_append_lt less _ _
  | cons rest inductionHypothesis =>
    rw [List.flatMap_cons, List.flatMap_cons]
    exact List.append_left_lt inductionHypothesis

/-- What keeps the order of texts also reflects it, because one of two different texts is less. -/
theorem lt_iff_of_mono {α : Type} [LT α] [Std.Asymm (LT.lt : α → α → Prop)] {view : String → α}
    (mono : ∀ {left right : String}, left < right → view left < view right)
    {left right : String} : view left < view right ↔ left < right := by
  refine ⟨fun less => ?_, mono⟩
  rcases Std.lt_trichotomy left right with before | rfl | after
  · exact before
  · exact absurd less (Std.not_gt_of_lt less)
  · exact absurd less (Std.not_gt_of_lt (mono after))

/-- The order of texts is the order of their bytes. -/
theorem bytes_lt_iff {left right : String} : bytes left < bytes right ↔ left < right := by
  apply lt_iff_of_mono
  intro left right before
  rw [bytes_eq, bytes_eq]
  exact encodeAll_lt (String.lt_iff.mp before)

/-- The order of texts is the order of their code points. -/
theorem codePoints_lt_iff {left right : String} :
    codePoints left < codePoints right ↔ left < right := by
  apply lt_iff_of_mono
  intro left right before
  exact List.map_lt (fun _ _ less => less) (String.lt_iff.mp before)

/-- A common beginning does not matter to the order of texts. -/
theorem append_lt_append_iff (beginning : String) {left right : String} :
    beginning ++ left < beginning ++ right ↔ left < right := by
  apply lt_iff_of_mono
  intro left right before
  rw [String.lt_iff, String.toList_append, String.toList_append]
  exact List.append_left_lt (String.lt_iff.mp before)

end StackLang.Text
