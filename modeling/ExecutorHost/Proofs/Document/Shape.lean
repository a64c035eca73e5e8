import ExecutorHost.Document.Shape
import ExecutorHost.Proofs.Document.Form

/-!
# What has been read in a shape

A list has been read item by item, and a record field by field: what comes out of a field that must
be there is the reading of the document under its name. In the other direction a record is read from
an object if each of its fields is: the check of all members that comes first finds nothing more.
-/

namespace ExecutorHost

variable {α : Type}

namespace Shape

theorem of_string {d : Document} {text : String} (h : string d = .ok text) : d = .string text := by
  cases d with
  | string s =>
    cases h
    rfl
  | _ => cases h

theorem exists_of_list {item : Shape α} {d : Document} {values : List α}
    (h : list item d = .ok values) :
    ∃ items, d = .array items ∧ List.Forall₂ (fun d value => item d = .ok value) items values := by
  cases d with
  | array items => exact ⟨items, rfl, forall₂_of_mapM_eq_ok h⟩
  | _ => cases h

/-- Every value of a list has been read from a document of its own. -/
theorem exists_of_mem_list {item : Shape α} {d : Document} {values : List α} {value : α}
    (h : list item d = .ok values) (hvalue : value ∈ values) : ∃ i, item i = .ok value := by
  cases d with
  | array items =>
    obtain ⟨i, -, hread⟩ := exists_of_mem_mapM (show items.mapM item = .ok values from h) hvalue
    exact ⟨i, hread⟩
  | _ => cases h

theorem list_map {shape : Shape α} {write : α → Document} {items : List α}
    (h : ∀ a ∈ items, shape (write a) = .ok a) :
    list shape (.array (items.map write)) = .ok items := by
  show (items.map write).mapM shape = _
  rw [List.mapM_map]
  exact (mapM_eq_ok_map h).trans (by rw [List.map_id'])

theorem list_string_eq_ok_iff {d : Document} {texts : List String} :
    list string d = .ok texts ↔ d = .ofStrings texts := by
  constructor
  · intro h
    obtain ⟨items, rfl, hread⟩ := exists_of_list h
    have hitems : items = texts.map .string := by
      rw [← List.forall₂_eq_eq_eq, List.forall₂_map_right_iff]
      exact hread.imp fun _ _ => of_string
    rw [hitems, Document.ofStrings]
  · rintro rfl
    exact list_map fun _ _ => rfl

theorem Source.of_required {source : Source} {name : String} {shape : Shape α} {value : α}
    (h : source.required name shape = .ok value) :
    ∃ d, Members.get? source.members name = some d ∧ shape d = .ok value := by
  unfold required at h
  split at h
  · rename_i d hfound
    exact ⟨d, hfound, h⟩
  · cases h

theorem Source.of_getOr {source : Source} {name : String} {shape : Shape α} {default value : α}
    (h : source.getOr name shape default = .ok value) :
    (Members.get? source.members name = none ∧ value = default) ∨
      ∃ d, Members.get? source.members name = some d ∧ shape d = .ok value := by
  unfold getOr at h
  split at h
  · rename_i d hfound
    exact .inr ⟨d, hfound, h⟩
  · rename_i habsent
    cases h
    exact .inl ⟨habsent, rfl⟩

variable {name : String} {fields : List Field} {build : Source → Except ShapeFault α} {value : α}

/-- A record is built from the members of an object, or from the items of an array under the names
of the fields. -/
theorem exists_of_record {d : Document} (h : record name fields build d = .ok value) :
    ∃ source, build source = .ok value ∧
      (d = .object source.members ∨
        ∃ items, d = .array items ∧ source.members = (fields.map (·.name)).zip items) := by
  cases d with
  | object members =>
    obtain ⟨_, -, hbuild⟩ := exists_of_bind_eq_ok h
    exact ⟨_, hbuild, .inl rfl⟩
  | array items =>
    obtain ⟨built, hbuild, hrest⟩ := exists_of_bind_eq_ok h
    by_cases hlong : fields.length < items.length
    · rw [if_pos hlong] at hrest
      cases hrest
    · rw [if_neg hlong] at hrest
      cases hrest
      exact ⟨_, hbuild, .inr ⟨items, rfl, rfl⟩⟩
  | _ => cases h

/-! ## What a shape accepts -/

theorem succeeds_string_iff {d : Document} : Succeeds (string d) ↔ d.IsText := by
  constructor
  · rintro ⟨text, h⟩
    exact ⟨text, of_string h⟩
  · rintro ⟨text, rfl⟩
    exact succeeds_ok text

theorem succeeds_optional_iff {shape : Shape α} {d : Document} :
    Succeeds (optional shape d) ↔ d = .null ∨ Succeeds (shape d) := by
  cases d with
  | null => exact ⟨fun _ => .inl rfl, fun _ => succeeds_ok none⟩
  | _ => simp [optional, succeeds_map_iff]

section Fields

variable {source : Source} {field : String} {shape : Shape α}

theorem Source.succeeds_required_iff :
    Succeeds (source.required field shape) ↔
      Members.Has (fun d => Succeeds (shape d)) source.members field := by
  unfold required Members.Has
  cases Members.get? source.members field with
  | none => simp [not_succeeds_error]
  | some d => simp

theorem Source.succeeds_getOr_iff {default : α} :
    Succeeds (source.getOr field shape default) ↔
      Members.IfThere (fun d => Succeeds (shape d)) source.members field := by
  unfold getOr Members.IfThere
  cases Members.get? source.members field with
  | none => simp [succeeds_ok]
  | some d => simp

/-- A field that may be null has its shape, or else it need not be there. -/
theorem ifThere_optional_iff {members : Members} :
    Members.IfThere (fun d => Succeeds (optional shape d)) members field ↔
      Members.MayHave (fun d => Succeeds (shape d)) members field := by
  unfold Members.IfThere Members.MayHave Members.Absent Members.Has
  simp only [succeeds_optional_iff]
  cases Members.get? members field with
  | none => simp
  | some d => simp

theorem Source.succeeds_option_iff :
    Succeeds (source.option field shape) ↔
      Members.MayHave (fun d => Succeeds (shape d)) source.members field :=
  succeeds_getOr_iff.trans ifThere_optional_iff

theorem Source.succeeds_required_string_iff :
    Succeeds (source.required field string) ↔ Members.Has Document.IsText source.members field := by
  simp only [succeeds_required_iff, succeeds_string_iff]

theorem succeeds_list_string_iff {d : Document} :
    Succeeds (list string d) ↔ d.IsListOf Document.IsText := by
  rw [Document.isListOf_text_iff]
  exact exists_congr fun texts => list_string_eq_ok_iff

theorem Source.succeeds_getOr_string_iff {default : String} :
    Succeeds (source.getOr field string default) ↔
      Members.IfThere Document.IsText source.members field := by
  simp only [succeeds_getOr_iff, succeeds_string_iff]

theorem Source.succeeds_option_string_iff :
    Succeeds (source.option field string) ↔
      Members.MayHave Document.IsText source.members field := by
  simp only [succeeds_option_iff, succeeds_string_iff]

theorem Source.succeeds_getOr_strings_iff {default : List String} :
    Succeeds (source.getOr field (list string) default) ↔
      Members.IfThere (Document.IsListOf Document.IsText) source.members field := by
  simp only [succeeds_getOr_iff, succeeds_list_string_iff]

theorem Source.succeeds_option_any_iff : Succeeds (source.option field any) ↔ True := by
  simp [option, succeeds_getOr_iff, Members.IfThere, succeeds_optional_iff, any, succeeds_ok]

/-! ## Reading an object field by field -/

/-- What stands under the name of a field passes its check. -/
def Passes (members : Members) (field : Field) : Prop :=
  Members.IfThere (fun d => Succeeds (field.check d)) members field.name

theorem passes_iff {members : Members} :
    Passes members (.of field shape) ↔
      Members.IfThere (fun d => Succeeds (shape d)) members field := by
  unfold Passes Field.of
  simp only [succeeds_map_iff]

theorem passes_string_iff {members : Members} :
    Passes members (.of field string) ↔ Members.IfThere Document.IsText members field := by
  simp only [passes_iff, succeeds_string_iff]

theorem passes_optional_string_iff {members : Members} :
    Passes members (.of field (optional string)) ↔
      Members.MayHave Document.IsText members field := by
  simp only [passes_iff, ifThere_optional_iff, succeeds_string_iff]

theorem passes_strings_iff {members : Members} :
    Passes members (.of field (list string)) ↔
      Members.IfThere (Document.IsListOf Document.IsText) members field := by
  simp only [passes_iff, succeeds_list_string_iff]

theorem passes_optional_any {members : Members} : Passes members (.of field (optional any)) := by
  simp [passes_iff, Members.IfThere, succeeds_optional_iff, any, succeeds_ok]

/-- A field that has been read passes its check. -/
theorem Source.passes_of_getOr {default : α} (h : source.getOr field shape default = .ok value) :
    Passes source.members (.of field shape) :=
  passes_iff.2 (succeeds_getOr_iff.1 ⟨value, h⟩)

theorem Source.passes_of_required (h : source.required field shape = .ok value) :
    Passes source.members (.of field shape) :=
  passes_iff.2 (succeeds_required_iff.1 ⟨value, h⟩).ifThere

end Fields

/-- The check of an object looks at its members in their order, and so at the fields in any. -/
theorem checkMembers_of_passes {members : Members} (hdistinct : Members.Distinct members)
    (h : ∀ field ∈ fields, Passes members field) : checkMembers fields members = .ok () := by
  have hsucceeds : Succeeds (checkMembers fields members) := by
    unfold checkMembers
    rw [succeeds_forM_iff]
    rintro ⟨key, d⟩ hmem
    cases hfound : fields.find? (·.name == key) with
    | none =>
      simp only [hfound]
      exact succeeds_ok ()
    | some field =>
      have hname : field.name = key := by simpa using List.find?_some hfound
      simp only [hfound]
      apply h field (List.mem_of_find?_eq_some hfound)
      rw [hname, Members.get?_of_mem hdistinct hmem]
  obtain ⟨_, hok⟩ := hsucceeds
  exact hok

/-- A shape accepts the records of a form, written in the one way or the other. An object with two
members of one name is no record that it must accept. -/
structure AcceptsRecord (shape : Shape α) (names : List String) (form : Members → Prop) : Prop where
  isRecordOf : ∀ {d}, Succeeds (shape d) → d.IsRecordOf names form
  succeeds : ∀ {d}, d.IsRecordOf names form →
    (∀ members, d = .object members → Members.Distinct members) → Succeeds (shape d)

/-- A record is accepted if it can be built from its fields and all of them pass their checks. -/
theorem acceptsRecord {form : Members → Prop}
    (hbuild : ∀ source, Succeeds (build source) ↔ form source.members)
    (hpasses : ∀ members, form members → ∀ field ∈ fields, Passes members field) :
    AcceptsRecord (record name fields build) (fields.map (·.name)) form where
  isRecordOf := by
    intro d h
    cases d with
    | object members =>
      obtain ⟨_, -, h⟩ := succeeds_bind_iff.1 h
      exact .inl ⟨members, rfl, (hbuild _).1 h⟩
    | array items =>
      obtain ⟨value, hvalue, hrest⟩ := succeeds_bind_iff.1 h
      by_cases hlong : fields.length < items.length
      · rw [if_pos hlong] at hrest
        exact absurd hrest (not_succeeds_error _)
      · refine .inr ⟨items, rfl, ?_, (hbuild _).1 ⟨value, hvalue⟩⟩
        rw [List.length_map]
        exact Nat.not_lt.1 hlong
    | _ => exact absurd h (not_succeeds_error _)
  succeeds := by
    rintro d (⟨members, rfl, hform⟩ | ⟨items, rfl, hlength, hform⟩) hdistinct
    · have hcheck := checkMembers_of_passes (hdistinct members rfl) (hpasses members hform)
      exact succeeds_bind_iff.2 ⟨(), hcheck, (hbuild _).2 hform⟩
    · rw [List.length_map] at hlength
      obtain ⟨value, hvalue⟩ := (hbuild ⟨_, _⟩).2 hform
      refine succeeds_bind_iff.2 ⟨value, hvalue, ?_⟩
      rw [if_neg (Nat.not_lt.2 hlength)]
      exact succeeds_ok value

/-! ## Reading what has been written -/

/-- What a record is written from: the names of its fields in their order, each with what is written
under it. -/
structure Entries where
  /-- The names, with nothing where a field is left out. -/
  list : List (String × Option Document)
  /-- No name stands twice. -/
  distinct : (list.map (·.1)).Nodup

namespace Entries

/-- The written form. -/
def toDocument (e : Entries) : Document := .object (Members.present e.list)

/-- Where the fields are looked for when the written form is read. -/
def source (e : Entries) : Source := ⟨Members.present e.list, .missingField⟩

theorem get?_source (e : Entries) {key : String} {written : Option Document}
    (h : (key, written) ∈ e.list) : Members.get? e.source.members key = written :=
  Members.get?_present e.distinct h

/-- If all that is written passes the checks, the record is only built from it. -/
theorem record_toDocument (e : Entries) (h : ∀ field ∈ fields, Passes e.source.members field) :
    record name fields build e.toDocument = build e.source := by
  show (checkMembers fields (Members.present e.list) >>= fun _ => build e.source) = _
  rw [checkMembers_of_passes (Members.distinct_present e.distinct) h]
  rfl

end Entries

section Written

variable {source : Source} {field : String} {shape : Shape α}

theorem Source.required_of_get? {d : Document} (hd : Members.get? source.members field = some d)
    (h : shape d = .ok value) : source.required field shape = .ok value := by
  unfold required
  rw [hd]
  exact h

theorem Source.string_of_get? {text : String}
    (hd : Members.get? source.members field = some (.string text)) :
    source.required field string = .ok text :=
  required_of_get? hd rfl

theorem Source.getOr_of_get? {default : α} {d : Document}
    (hd : Members.get? source.members field = some d) (h : shape d = .ok value) :
    source.getOr field shape default = .ok value := by
  unfold getOr
  rw [hd]
  exact h

/-- A field that may be left out, or else is written in its shape and not as null. -/
theorem Source.option_of_get? {write : α → Document} {written : Option α}
    (hread : ∀ a ∈ written, shape (write a) = .ok a) (hnull : ∀ a ∈ written, write a ≠ .null)
    (hd : Members.get? source.members field = written.map write) :
    source.option field shape = .ok written := by
  unfold option getOr
  rw [hd]
  cases written with
  | none => rfl
  | some a =>
    show optional shape (write a) = _
    unfold optional
    split
    · rename_i h
      exact absurd h (hnull a rfl)
    · rw [hread a rfl]
      rfl

theorem Source.text_of_get? {written : Option String}
    (hd : Members.get? source.members field = written.map .string) :
    source.option field string = .ok written :=
  option_of_get? (fun _ _ => rfl) (by simp) hd

/-- A value of any form is read back, unless it is null, which is read as no value. -/
theorem Source.value_of_get? {written : Option Document} (hnull : written ≠ some .null)
    (hd : Members.get? source.members field = written) : source.option field any = .ok written := by
  have hid : Members.get? source.members field = written.map id := by
    rw [hd, Option.map_id_fun, id_eq]
  refine option_of_get? (fun _ _ => rfl) ?_ hid
  rintro a ha rfl
  exact hnull ha

theorem Source.ne_null_of_value {read : Option Document} (h : source.option field any = .ok read) :
    read ≠ some .null := by
  rcases of_getOr h with ⟨-, rfl⟩ | ⟨d, -, hread⟩
  · simp
  · cases d with
    | null =>
      cases hread
      simp
    | _ =>
      cases hread
      simp

/-- A list of texts that is left out is read as the empty one. -/
theorem Source.getOr_strings_eq_ok_iff {texts : List String} :
    source.getOr field (list string) [] = .ok texts ↔
      (Members.get? source.members field).getD (.array []) = .ofStrings texts := by
  unfold getOr
  cases Members.get? source.members field with
  | none => exact list_string_eq_ok_iff (d := .array [])
  | some d => exact list_string_eq_ok_iff

/-- A list is read back if it is left out only when it is empty. -/
theorem Source.list_of_get? {write : α → Document} {items : List α}
    (h : ∀ a ∈ items, shape (write a) = .ok a)
    (hd : Members.get? source.members field =
      if items.isEmpty then none else some (.array (items.map write))) :
    source.getOr field (list shape) [] = .ok items := by
  cases items with
  | nil =>
    unfold getOr
    rw [hd]
    rfl
  | cons a rest => exact getOr_of_get? hd (list_map h)

end Written

end Shape

end ExecutorHost
