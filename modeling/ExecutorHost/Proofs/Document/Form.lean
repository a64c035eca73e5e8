import ExecutorHost.Proofs.Document.Field

/-!
# Forms of members

A grammar of documents says of each member whether it must be there and what form it has. These are
the forms, and for each way of reading a member the form that it accepts: reading succeeds if and
only if the member has the form, or may be left out and is.
-/

namespace ExecutorHost

/-! ## Forms of documents -/

namespace Document

/-- A text. -/
def IsText (d : Document) : Prop := ∃ text, d = .string text

/-- A text that is not empty. -/
def IsName (d : Document) : Prop := ∃ text, text ≠ "" ∧ d = .string text

/-- A truth value. -/
def IsFlag (d : Document) : Prop := ∃ b, d = .bool b

/-- A list of items of one form. -/
def IsListOf (item : Document → Prop) (d : Document) : Prop :=
  ∃ items, d = .array items ∧ ∀ i ∈ items, item i

/-- An object whose members have a form. -/
def IsObjectOf (form : Members → Prop) (d : Document) : Prop :=
  ∃ members, d = .object members ∧ form members

/-- A record whose fields have a form: an object, or an array of their values in the order of the
names, where those at the end may be left off. -/
def IsRecordOf (names : List String) (form : Members → Prop) (d : Document) : Prop :=
  IsObjectOf form d ∨
    ∃ items, d = .array items ∧ items.length ≤ names.length ∧ form (names.zip items)

theorem exists_string?_iff (d : Document) : (∃ text, d.string? = some text) ↔ d.IsText := by
  constructor
  · rintro ⟨text, h⟩
    exact ⟨text, eq_string_of_string? d h⟩
  · rintro ⟨text, rfl⟩
    exact ⟨text, rfl⟩

theorem exists_members?_iff {P : Members → Prop} (d : Document) :
    (∃ members, d.members? = some members ∧ P members) ↔ d.IsObjectOf P := by
  constructor
  · rintro ⟨members, h, hmembers⟩
    exact ⟨members, eq_object_of_members? d h, hmembers⟩
  · rintro ⟨members, rfl, hmembers⟩
    exact ⟨members, rfl, hmembers⟩

theorem exists_bool?_iff (d : Document) : (∃ b, d.bool? = some b) ↔ d.IsFlag := by
  cases d with
  | bool b => exact ⟨fun _ => ⟨b, rfl⟩, fun _ => ⟨b, rfl⟩⟩
  | _ => simp [bool?, IsFlag]

/-- If every item is written in one way, the list is written from a list of values. -/
theorem isListOf_iff {α : Type} {item : Document → Prop} {write : α → Document} {P : α → Prop}
    (hitem : ∀ d, item d ↔ ∃ a, d = write a ∧ P a) {d : Document} :
    d.IsListOf item ↔ ∃ values : List α, d = .array (values.map write) ∧ ∀ a ∈ values, P a := by
  constructor
  · rintro ⟨items, rfl, hitems⟩
    induction items with
    | nil => exact ⟨[], rfl, by simp⟩
    | cons i rest ih =>
      obtain ⟨hfirst, hrest⟩ := List.forall_mem_cons.1 hitems
      obtain ⟨a, rfl, ha⟩ := (hitem i).1 hfirst
      obtain ⟨values, hvalues, hall⟩ := ih hrest
      cases hvalues
      exact ⟨a :: values, rfl, List.forall_mem_cons.2 ⟨ha, hall⟩⟩
  · rintro ⟨values, rfl, hall⟩
    refine ⟨_, rfl, List.forall_mem_map.2 ?_⟩
    intro a ha
    exact (hitem _).2 ⟨a, rfl, hall a ha⟩

theorem isListOf_text_iff {d : Document} :
    d.IsListOf IsText ↔ ∃ texts : List String, d = .array (texts.map .string) := by
  have hitem : ∀ i : Document, i.IsText ↔ ∃ text, i = .string text ∧ True := by simp [IsText]
  rw [isListOf_iff hitem]
  simp

theorem isListOf_object_iff {form : Members → Prop} {d : Document} :
    d.IsListOf (IsObjectOf form) ↔
      ∃ objects : List Members, d = .array (objects.map .object) ∧ ∀ o ∈ objects, form o :=
  isListOf_iff fun _ => Iff.rfl

end Document

/-! ## Members of a form -/

namespace Members

open Document

variable {members : Members} {key : String} {form : Document → Prop} {α : Type}

/-- A member is there and has a form. -/
def Has (form : Document → Prop) (members : Members) (key : String) : Prop :=
  ∃ d, get? members key = some d ∧ form d

/-- A member is absent or null, or else it has a form. -/
def MayHave (form : Document → Prop) (members : Members) (key : String) : Prop :=
  Absent members key ∨ Has form members key

/-- A member has a form if it is there; null is a value like others. -/
def IfThere (form : Document → Prop) (members : Members) (key : String) : Prop :=
  ∀ d, get? members key = some d → form d

theorem Has.ifThere (h : Has form members key) : IfThere form members key := by
  obtain ⟨d, hd, hform⟩ := h
  intro d' hd'
  cases hd.symm.trans hd'
  exact hform

theorem absent_of_null (h : get? members key = some .null) : Absent members key := by
  intro d hd
  cases h.symm.trans hd
  rfl

theorem optional_of_absent {wanted : MemberKind} {read : Document → Option α}
    (h : Absent members key) : optional wanted read members key = .ok none := by
  unfold optional
  split
  · rfl
  · rfl
  · rename_i d hnull hd
    exact absurd (h d hd) hnull

theorem optional_of_some {wanted : MemberKind} {read : Document → Option α} {d : Document} {a : α}
    (hd : get? members key = some d) (hnull : d ≠ .null) (ha : read d = some a) :
    optional wanted read members key = .ok (some a) := by
  unfold optional
  rw [hd]
  split
  · rename_i h
    cases h
  · rename_i h
    exact absurd (Option.some.inj h) hnull
  · rename_i _ _ h
    cases h
    rw [ha]

/-- A member that may be left out can be read, and what is read is good, if and only if the member
is left out or has a form of which the reading is good. -/
theorem exists_optional_iff {wanted : MemberKind} {read : Document → Option α}
    {good : Option α → Prop} (hnone : good none)
    (hform : ∀ d, (∃ a, read d = some a ∧ good (some a)) ↔ form d) :
    (∃ value, optional wanted read members key = .ok value ∧ good value) ↔
      MayHave form members key := by
  constructor
  · rintro ⟨value, hvalue, hgood⟩
    rcases cases_of_optional hvalue with ⟨-, habsent⟩ | ⟨d, a, hd, ha, rfl⟩
    · exact .inl habsent
    · exact .inr ⟨d, hd, (hform d).1 ⟨a, ha, hgood⟩⟩
  · rintro (habsent | ⟨d, hd, hd'⟩)
    · exact ⟨none, optional_of_absent habsent, hnone⟩
    · by_cases hnull : d = .null
      · rw [hnull] at hd
        exact ⟨none, optional_of_absent (absent_of_null hd), hnone⟩
      · obtain ⟨a, ha, hgood⟩ := (hform d).2 hd'
        exact ⟨some a, optional_of_some hd hnull ha, hgood⟩

/-- The same of a member that must be there, which null is not. -/
theorem exists_required_iff {wanted : MemberKind} {read : Document → Option α} {good : α → Prop}
    (hnull : read .null = none) (hform : ∀ d, (∃ a, read d = some a ∧ good a) ↔ form d) :
    (∃ value, required wanted read members key = .ok value ∧ good value) ↔
      Has form members key := by
  constructor
  · rintro ⟨value, hvalue, hgood⟩
    obtain ⟨d, hd, ha⟩ := exists_of_required hvalue
    exact ⟨d, hd, (hform d).1 ⟨value, ha, hgood⟩⟩
  · rintro ⟨d, hd, hd'⟩
    obtain ⟨a, ha, hgood⟩ := (hform d).2 hd'
    have hne : d ≠ .null := by
      rintro rfl
      cases hnull.symm.trans ha
    refine ⟨a, ?_, hgood⟩
    unfold required
    rw [optional_of_some hd hne ha]
    rfl

theorem succeeds_optional_iff {wanted : MemberKind} {read : Document → Option α}
    (hform : ∀ d, (∃ a, read d = some a) ↔ form d) :
    Succeeds (optional wanted read members key) ↔ MayHave form members key := by
  have h : (∃ value, optional wanted read members key = .ok value ∧ True) ↔
      MayHave form members key :=
    exists_optional_iff True.intro fun d => by simpa only [and_true] using hform d
  unfold Succeeds
  simpa only [and_true] using h

theorem succeeds_string?_iff : Succeeds (string? members key) ↔ MayHave IsText members key :=
  succeeds_optional_iff exists_string?_iff

theorem exists_string_iff {P : String → Prop} :
    (∃ text, string members key = .ok text ∧ P text) ↔
      Has (fun d => ∃ text, P text ∧ d = .string text) members key := by
  apply exists_required_iff rfl
  intro d
  constructor
  · rintro ⟨text, h, htext⟩
    exact ⟨text, htext, eq_string_of_string? d h⟩
  · rintro ⟨text, htext, rfl⟩
    exact ⟨text, rfl, htext⟩

theorem succeeds_string_iff : Succeeds (string members key) ↔ Has IsText members key := by
  have h : (∃ text, string members key = .ok text ∧ True) ↔
      Has (fun d => ∃ text, True ∧ d = .string text) members key := exists_string_iff
  unfold Succeeds IsText
  simpa only [and_true, true_and] using h

theorem succeeds_boolOr_iff {default : Bool} :
    Succeeds (boolOr members key default) ↔ MayHave IsFlag members key := by
  unfold boolOr
  rw [succeeds_map_iff]
  exact succeeds_optional_iff exists_bool?_iff

theorem exists_object?_iff {good : Option Members → Prop} (hnone : good none) :
    (∃ value, object? members key = .ok value ∧ good value) ↔
      MayHave (IsObjectOf fun inner => good (some inner)) members key :=
  exists_optional_iff hnone exists_members?_iff

/-- What is read of a list that is left out. -/
theorem list_of_absent {wanted : MemberKind} {read : Document → Option α}
    (h : Absent members key) :
    (array? members key >>= fun
      | some items => (allOf wanted read key items).map some
      | none => .ok none) = .ok none := by
  have harray : array? members key = .ok none := optional_of_absent h
  rw [harray]
  rfl

theorem succeeds_strings?_iff :
    Succeeds (strings? members key) ↔ MayHave (IsListOf IsText) members key := by
  constructor
  · rintro ⟨value, hvalue⟩
    rcases cases_of_strings? hvalue with ⟨-, habsent⟩ | ⟨texts, hd, -⟩
    · exact .inl habsent
    · exact .inr ⟨_, hd, isListOf_text_iff.2 ⟨texts, rfl⟩⟩
  · rintro (habsent | ⟨d, hd, hlist⟩)
    · exact ⟨none, list_of_absent habsent⟩
    · obtain ⟨texts, rfl⟩ := isListOf_text_iff.1 hlist
      exact ⟨some texts, strings?_of_get? hd⟩

theorem exists_objects?_iff {good : Option (List Members) → Prop} {P : Members → Prop}
    (hnone : good none) (hsome : ∀ objects, good (some objects) ↔ ∀ o ∈ objects, P o) :
    (∃ value, objects? members key = .ok value ∧ good value) ↔
      MayHave (IsListOf (IsObjectOf P)) members key := by
  constructor
  · rintro ⟨value, hvalue, hgood⟩
    rcases cases_of_objects? hvalue with ⟨-, habsent⟩ | ⟨objects, hd, rfl⟩
    · exact .inl habsent
    · exact .inr ⟨_, hd, isListOf_object_iff.2 ⟨objects, rfl, (hsome objects).1 hgood⟩⟩
  · rintro (habsent | ⟨d, hd, hlist⟩)
    · exact ⟨none, list_of_absent habsent, hnone⟩
    · obtain ⟨objects, rfl, hall⟩ := isListOf_object_iff.1 hlist
      exact ⟨some objects, objects?_of_get? hd, (hsome objects).2 hall⟩

end Members

end ExecutorHost
