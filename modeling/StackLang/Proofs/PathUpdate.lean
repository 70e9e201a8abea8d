import StackLang.Proofs.ExpressionSimulation

/-!
# Replacing what stands at the end of a path

`Value.setPath` replaces a field inside nested structs, which `Value.Updates` says struct by struct,
or it fails with the first offence along the path (`Value.setPath_cases`). What has been stored is
read back and what lies off the path is as before (`Updates.follow_eq`, `Updates.follow_apart`); the
two cases are told apart by whether all members but the last lead from struct to struct.
-/

namespace StackLang

namespace Value

variable {whole changed value : Value} {record : Record} {members : List String}
  {cause : RunError}

/-- The first step along a path of members that cannot be taken, with the error that it is: a member
of something that is not a struct, or a member before the last one that is not there. -/
inductive Offends : Value → List String → RunError → Prop where
  | notStruct {whole : Value} (other : whole.kind ≠ .struct) (name : String)
      (others : List String) : Offends whole (name :: others) (.typeMismatch .struct whole.kind)
  | missing {record : Record} {name : String} {others : List String}
      (absent : record.find? name = Option.none) (further : others ≠ []) :
      Offends (.struct record) (name :: others) (.undefinedField name)
  | inside {record : Record} {name : String} {part : Value} {others : List String}
      {cause : RunError} (found : record.find? name = some part)
      (offends : Offends part others cause) : Offends (.struct record) (name :: others) cause

/-- Replacing the field at the end of a path, struct by struct. -/
inductive Updates (value : Value) : List String → Value → Value → Prop where
  | whole (old : Value) : Updates value [] old value
  | last (record : Record) (name : String) :
      Updates value [name] (.struct record) (.struct (record.insert name value))
  | inside {record : Record} {name : String} {part changed : Value} {others : List String}
      (found : record.find? name = some part) (updates : Updates value others part changed) :
      Updates value (name :: others) (.struct record) (.struct (record.insert name changed))

theorem asStruct_error (other : whole.kind ≠ .struct) :
    whole.asStruct = .error (.typeMismatch .struct whole.kind) := by
  cases whole with
  | struct record => exact absurd rfl other
  | _ => rfl

/-- A path either can be followed up to its last member, and what stands at its end is replaced, or
there is a first offence. -/
theorem setPath_cases (whole : Value) (members : List String) (value : Value) :
    (∃ changed, whole.setPath members value = .ok changed ∧ Updates value members whole changed) ∨
      ∃ cause, whole.setPath members value = .error cause ∧ Offends whole members cause := by
  fun_induction setPath whole members value with
  | case1 whole => exact .inl ⟨value, rfl, .whole whole⟩
  | case2 whole name =>
    by_cases isStruct : whole.kind = .struct
    · cases whole with
      | struct record => exact .inl ⟨_, rfl, .last record name⟩
      | _ => cases isStruct
    · rw [asStruct_error isStruct]
      exact .inr ⟨_, rfl, .notStruct isStruct name []⟩
  | case3 whole name others further inductionHypothesis =>
    by_cases isStruct : whole.kind = .struct
    · cases whole with
      | struct record =>
        change (∃ changed, (Record.field record name >>= _) = _ ∧ _) ∨
          ∃ cause, (Record.field record name >>= _) = _ ∧ _
        cases found : record.find? name with
        | none =>
          have absent : Record.field record name = .error (.undefinedField name) := by
            rw [Record.field, found]
          rw [absent]
          exact .inr ⟨_, rfl, .missing found further⟩
        | some part =>
          have present : Record.field record name = .ok part := by
            rw [Record.field, found]
          rw [present]
          change (∃ changed, (part.setPath others value >>= _) = _ ∧ _) ∨
            ∃ cause, (part.setPath others value >>= _) = _ ∧ _
          rcases inductionHypothesis part with ⟨changed, set, updates⟩ | ⟨cause, failed, offends⟩
          · rw [set]
            exact .inl ⟨_, rfl, .inside found updates⟩
          · rw [failed]
            exact .inr ⟨cause, rfl, .inside found offends⟩
      | _ => cases isStruct
    · rw [asStruct_error isStruct]
      exact .inr ⟨_, rfl, .notStruct isStruct name others⟩

theorem updates_of_setPath (replaced : whole.setPath members value = .ok changed) :
    Updates value members whole changed := by
  rcases setPath_cases whole members value with ⟨result, same, updates⟩ | ⟨cause, failed, _⟩
  · cases replaced.symm.trans same
    exact updates
  · cases replaced.symm.trans failed

theorem follow_cons {name : String} {part : Value} (found : record.find? name = some part)
    (others : List String) : (struct record).follow (name :: others) = part.follow others := by
  show (Record.field record name >>= _) = _
  rw [Record.field, found]
  rfl

/-- What has been stored at the end of a path is found there. -/
theorem Updates.follow_eq (updates : Updates value members whole changed) :
    changed.follow members = .ok value := by
  induction updates with
  | whole _ => rfl
  | last record name =>
    rw [@follow_cons _ name value (by rw [Fields.find?_insert, if_pos rfl])]
    rfl
  | @inside record name part changed others found updates inductionHypothesis =>
    rwa [@follow_cons _ name changed (by rw [Fields.find?_insert, if_pos rfl])]

/-- Replacing one field of a struct leaves every path through another as it was. -/
theorem follow_insert {name other : String} (different : other ≠ name) (value : Value)
    (others : List String) :
    (struct (record.insert name value)).follow (other :: others) =
      (struct record).follow (other :: others) := by
  show (Record.field _ other >>= _) = (Record.field _ other >>= _)
  rw [Record.field, Record.field, Fields.find?_insert, if_neg different]

/-- Whatever lies off the path is as it was. -/
theorem Updates.follow_apart (updates : Updates value members whole changed)
    {path : List String} (notAbove : ¬ path <+: members) (notBelow : ¬ members <+: path) :
    changed.follow path = whole.follow path := by
  induction updates generalizing path with
  | whole _ => exact absurd (List.nil_prefix) notBelow
  | last record name =>
    cases path with
    | nil => exact absurd (List.nil_prefix) notAbove
    | cons other rest =>
      refine follow_insert ?_ value rest
      rintro rfl
      exact notBelow (List.prefix_append [other] rest)
  | @inside record name part changed others found updates inductionHypothesis =>
    cases path with
    | nil => exact absurd (List.nil_prefix) notAbove
    | cons other rest =>
      by_cases same : other = name
      · subst same
        rw [@follow_cons _ other changed (by rw [Fields.find?_insert, if_pos rfl]),
          follow_cons found]
        exact inductionHypothesis
          (fun above => notAbove (List.cons_prefix_cons.mpr ⟨rfl, above⟩))
          fun below => notBelow (List.cons_prefix_cons.mpr ⟨rfl, below⟩)
      · exact follow_insert same changed rest

/-- All members of a path but the last lead from struct to struct. -/
def Leads (whole : Value) (members : List String) : Prop :=
  ∃ record, whole.follow members.dropLast = .ok (.struct record)

theorem Updates.leads (updates : Updates value members whole changed) (nonempty : members ≠ []) :
    whole.Leads members := by
  induction updates with
  | whole _ => exact absurd rfl nonempty
  | last record name => exact ⟨record, rfl⟩
  | @inside record name part changed others found updates inductionHypothesis =>
    by_cases further : others = []
    · subst further
      exact ⟨record, rfl⟩
    · obtain ⟨inner, followed⟩ := inductionHypothesis further
      refine ⟨inner, ?_⟩
      rwa [List.dropLast_cons_of_ne_nil further, follow_cons found]

theorem Offends.not_leads (offends : Offends whole members cause) : ¬ whole.Leads members := by
  induction offends with
  | @notStruct whole other name others =>
    rintro ⟨record, followed⟩
    cases others with
    | nil =>
      cases followed
      exact other rfl
    | cons second rest =>
      rw [List.dropLast_cons_cons, follow, asStruct_error other] at followed
      cases followed
  | @missing record name others absent further =>
    rintro ⟨inner, followed⟩
    rw [List.dropLast_cons_of_ne_nil further] at followed
    change (Record.field record name >>= _) = _ at followed
    rw [Record.field, absent] at followed
    cases followed
  | @inside record name part others cause found offends inductionHypothesis =>
    rintro ⟨inner, followed⟩
    have further : others ≠ [] := by
      rintro rfl
      cases offends
    rw [List.dropLast_cons_of_ne_nil further, follow_cons found] at followed
    exact inductionHypothesis ⟨inner, followed⟩

end Value

end StackLang
