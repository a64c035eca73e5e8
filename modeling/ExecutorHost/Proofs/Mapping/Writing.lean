import ExecutorHost.Mapping.Specification
import ExecutorHost.Proofs.Executor.Writing

/-!
# Written mappings

The documents that describe a mapping are a grammar and a condition on the keys: a marked document of
the grammar is a mapping if no key is empty and none stands twice, and otherwise one of its keys is
the fault that is reported. A mapping that has been read is written as such a document, from which it
is read again.
-/

namespace ExecutorHost

open Document Shape.Source

/-! ## Control templates -/

namespace ControlTemplate

/-- The form of the fields of a template; its default may be anything. -/
@[mk_iff]
structure Described (members : Members) : Prop where
  valueType : Members.Has IsText members "value_type"
  caption : Members.MayHave IsText members "caption"

/-- A template that can be read again: its default, if it has one, is not null. -/
def Readable (t : ControlTemplate) : Prop := t.default ≠ some .null

/-- The members that a written template may have. -/
def entries (t : ControlTemplate) : Shape.Entries where
  list := [
    ("value_type", some (.string t.valueType)),
    ("default", t.default),
    ("caption", t.caption.map .string)]
  distinct := by
    show ["value_type", "default", "caption"].Nodup
    decide

variable {t : ControlTemplate}

theorem toDocument_eq : t.toDocument = t.entries.toDocument := rfl

theorem shape_toDocument (h : t.Readable) : shape t.toDocument = .ok t := by
  have hvalueType : t.entries.source.required "value_type" Shape.string = .ok t.valueType :=
    string_of_get? (t.entries.get?_source (by simp [entries]))
  have hdefault : t.entries.source.option "default" Shape.any = .ok t.default :=
    value_of_get? h (t.entries.get?_source (by simp [entries]))
  have hcaption : t.entries.source.option "caption" Shape.string = .ok t.caption :=
    text_of_get? (t.entries.get?_source (by simp [entries]))
  rw [toDocument_eq, shape, Shape.Entries.record_toDocument]
  · rw [hvalueType, hdefault, hcaption]
    rfl
  · simp only [fields, List.forall_mem_cons]
    exact ⟨passes_of_required hvalueType, passes_of_getOr hdefault, passes_of_getOr hcaption,
      by simp⟩

theorem readable_of_shape {d : Document} (h : shape d = .ok t) : t.Readable := by
  obtain ⟨source, hbuild, -⟩ := Shape.exists_of_record h
  obtain ⟨valueType, -, hbuild⟩ := exists_of_bind_eq_ok hbuild
  obtain ⟨default, hdefault, hbuild⟩ := exists_of_bind_eq_ok hbuild
  obtain ⟨caption, -, hbuild⟩ := exists_of_bind_eq_ok hbuild
  cases hbuild
  exact ne_null_of_value hdefault

/-- The records that are read as templates. -/
theorem acceptsRecord_shape :
    shape.AcceptsRecord ["value_type", "default", "caption"] Described := by
  apply Shape.acceptsRecord
  · intro source
    have hparts : Described source.members ↔
        Members.Has IsText source.members "value_type" ∧
          True ∧ Members.MayHave IsText source.members "caption" := by
      rw [described_iff, true_and]
    rw [hparts]
    apply succeeds_bind_iff_and succeeds_required_string_iff
    intro valueType
    apply succeeds_bind_iff_and succeeds_option_any_iff
    intro default
    rw [succeeds_bind_pure_iff, succeeds_option_string_iff]
  · intro members h
    simp only [fields, List.forall_mem_cons]
    exact ⟨Shape.passes_string_iff.2 h.valueType.ifThere, Shape.passes_optional_any,
      Shape.passes_optional_string_iff.2 h.caption, by simp⟩

end ControlTemplate

/-! ## Keys -/

namespace MappingFault

/-- A fault of keys that is really one of them. -/
inductive Blames (keys : List String) : MappingFault → Prop
  /-- A key is empty. -/
  | emptyKey (h : "" ∈ keys) : Blames keys .emptyKey
  /-- A key stands more than once. -/
  | repeatedKey {key : String} (h : 1 < keys.count key) : Blames keys (.repeatedKey key)

theorem Blames.of_perm {fault : MappingFault} {keys others : List String}
    (h : Blames keys fault) (hperm : keys.Perm others) : Blames others fault := by
  cases h with
  | emptyKey h => exact .emptyKey (hperm.mem_iff.1 h)
  | repeatedKey h => exact .repeatedKey (hperm.count_eq _ ▸ h)

end MappingFault

namespace Mapping

/-- No key is empty, and none stands twice. -/
def SoundKeys (keys : List String) : Prop := "" ∉ keys ∧ keys.Nodup

/-- Keys that are looked at after others must also be none of those. -/
theorem keyFault?_eq_none_iff (before keys : List String) :
    keyFault? before keys = none ↔ SoundKeys keys ∧ ∀ key ∈ keys, key ∉ before := by
  induction keys generalizing before with
  | nil => simp [keyFault?, SoundKeys]
  | cons key rest ih =>
    unfold keyFault?
    by_cases hempty : key = ""
    · simp [hempty, SoundKeys]
    · by_cases hbefore : key ∈ before
      · simp [hempty, hbefore]
      · simp only [String.isEmpty_iff, if_neg hempty, if_neg hbefore, ih, SoundKeys,
          List.mem_cons, List.nodup_cons, not_or]
        grind

theorem blames_of_keyFault? {before keys : List String} {fault : MappingFault}
    (h : keyFault? before keys = some fault) : fault.Blames (before ++ keys) := by
  induction keys generalizing before with
  | nil => cases h
  | cons key rest ih =>
    unfold keyFault? at h
    by_cases hempty : key.isEmpty = true
    · rw [if_pos hempty] at h
      cases h
      rw [String.isEmpty_iff] at hempty
      exact .emptyKey (by simp [hempty])
    · rw [if_neg hempty] at h
      by_cases hbefore : key ∈ before
      · rw [if_pos hbefore] at h
        cases h
        have hcount := List.count_pos_iff.2 hbefore
        exact .repeatedKey (by rw [List.count_append, List.count_cons_self]; omega)
      · rw [if_neg hbefore] at h
        exact (ih h).of_perm List.perm_middle.symm

theorem keyFault?_cases (keys : List String) :
    (SoundKeys keys ∧ keyFault? [] keys = none) ∨
      ¬SoundKeys keys ∧ ∃ fault, keyFault? [] keys = some fault ∧ fault.Blames keys := by
  have hnone : keyFault? [] keys = none ↔ SoundKeys keys := by
    simp [keyFault?_eq_none_iff]
  cases h : keyFault? [] keys with
  | none => exact .inl ⟨hnone.1 h, rfl⟩
  | some fault =>
    refine .inr ⟨fun hsound => ?_, fault, rfl, blames_of_keyFault? h⟩
    cases (hnone.2 hsound).symm.trans h

/-! ## Documents that describe a mapping -/

/-- The members of a document that describes a mapping of these keys, whether the keys are sound or
not. -/
structure Described (members : Members) (keys : List String) : Prop where
  app : Members.get? members "app" = some (.string mappingApp)
  version : Members.IfThere IsText members "version"
  id : Members.Has IsText members "id"
  name : Members.MayHave IsText members "name"
  category : Members.MayHave IsText members "category"
  description : Members.MayHave IsText members "description"
  keys : (Members.get? members "keys").getD (.array []) = .ofStrings keys
  template : Members.IfThere
    (IsRecordOf ["value_type", "default", "caption"] ControlTemplate.Described)
    members "control_template"

/-- The members of a record that is read as a mapping. -/
@[mk_iff]
structure Shaped (members : Members) : Prop where
  app : Members.Has IsText members "app"
  version : Members.IfThere IsText members "version"
  id : Members.Has IsText members "id"
  name : Members.MayHave IsText members "name"
  category : Members.MayHave IsText members "category"
  description : Members.MayHave IsText members "description"
  keys : Members.IfThere (IsListOf IsText) members "keys"
  template : Members.IfThere (fun d => Succeeds (ControlTemplate.shape d)) members
    "control_template"

theorem acceptsRecord_shape (file : Option Path) :
    (shape file).AcceptsRecord (fields.map (·.name)) Shaped := by
  apply Shape.acceptsRecord
  · intro source
    rw [shaped_iff]
    apply succeeds_bind_iff_and succeeds_required_string_iff
    intro app
    apply succeeds_bind_iff_and succeeds_getOr_string_iff
    intro version
    apply succeeds_bind_iff_and succeeds_required_string_iff
    intro id
    apply succeeds_bind_iff_and succeeds_option_string_iff
    intro name
    apply succeeds_bind_iff_and succeeds_option_string_iff
    intro category
    apply succeeds_bind_iff_and succeeds_option_string_iff
    intro description
    apply succeeds_bind_iff_and succeeds_getOr_strings_iff
    intro keys
    rw [succeeds_bind_pure_iff, succeeds_getOr_iff]
  · intro members h
    simp only [fields, List.forall_mem_cons]
    exact ⟨Shape.passes_string_iff.2 h.app.ifThere, Shape.passes_string_iff.2 h.version,
      Shape.passes_string_iff.2 h.id.ifThere, Shape.passes_optional_string_iff.2 h.name,
      Shape.passes_optional_string_iff.2 h.category,
      Shape.passes_optional_string_iff.2 h.description, Shape.passes_strings_iff.2 h.keys,
      Shape.passes_iff.2 h.template, by simp⟩

/-- What is read as a mapping, apart from the condition on its keys. -/
theorem exists_of_shape {d : Document} {file : Option Path} {m : Mapping}
    (h : shape file d = .ok m) :
    ∃ source : Shape.Source, m.file = file ∧
      source.getOr "keys" (Shape.list Shape.string) [] = .ok m.keys ∧
      source.getOr "control_template" ControlTemplate.shape {} = .ok m.template ∧
      (isMapping d = true → d = .object source.members) := by
  obtain ⟨source, hbuild, hwritten⟩ := Shape.exists_of_record h
  obtain ⟨app, -, hbuild⟩ := exists_of_bind_eq_ok hbuild
  obtain ⟨version, -, hbuild⟩ := exists_of_bind_eq_ok hbuild
  obtain ⟨id, -, hbuild⟩ := exists_of_bind_eq_ok hbuild
  obtain ⟨name, -, hbuild⟩ := exists_of_bind_eq_ok hbuild
  obtain ⟨category, -, hbuild⟩ := exists_of_bind_eq_ok hbuild
  obtain ⟨description, -, hbuild⟩ := exists_of_bind_eq_ok hbuild
  obtain ⟨keys, hkeys, hbuild⟩ := exists_of_bind_eq_ok hbuild
  obtain ⟨template, htemplate, hbuild⟩ := exists_of_bind_eq_ok hbuild
  cases hbuild
  refine ⟨source, rfl, hkeys, htemplate, fun hmarked => ?_⟩
  rcases hwritten with hobject | ⟨items, rfl, -⟩
  · exact hobject
  · cases hmarked

theorem isMapping_object_iff {members : Members} :
    isMapping (.object members) = true ↔ Members.get? members "app" = some (.string mappingApp) := by
  show ((Members.get? members "app").bind Document.string? == some mappingApp) = true ↔ _
  rw [beq_iff_eq, Option.bind_eq_some_iff]
  constructor
  · rintro ⟨d, hd, htext⟩
    rw [hd, eq_string_of_string? d htext]
  · intro hd
    exact ⟨_, hd, rfl⟩

/-- What a document that describes keys is found to be. -/
theorem exists_shape_of_described {members : Members} {keys : List String} (file : Option Path)
    (hwell : members.WellFormed) (h : Described members keys) :
    ∃ m, shape file (.object members) = .ok m ∧ m.keys = keys := by
  obtain ⟨hdistinct, hinner⟩ := hwell
  have hshaped : Shaped members :=
    { app := ⟨_, h.app, _, rfl⟩
      version := h.version
      id := h.id
      name := h.name
      category := h.category
      description := h.description
      keys := by
        intro d hd
        have hkeys := h.keys
        rw [hd] at hkeys
        exact isListOf_text_iff.2 ⟨keys, hkeys⟩
      template := by
        intro d hd
        apply ControlTemplate.acceptsRecord_shape.succeeds (h.template d hd)
        rintro below rfl
        obtain ⟨hbelow, -⟩ := hinner _ below hd
        exact hbelow }
  have hsucceeds : Succeeds (shape file (.object members)) := by
    apply (acceptsRecord_shape file).succeeds (.inl ⟨members, rfl, hshaped⟩)
    rintro _ ⟨rfl⟩
    exact hdistinct
  obtain ⟨m, hm⟩ := hsucceeds
  obtain ⟨source, -, hkeys, -, hobject⟩ := exists_of_shape hm
  cases hobject (isMapping_object_iff.2 h.app)
  refine ⟨m, hm, ?_⟩
  have hsame : Document.ofStrings m.keys = .ofStrings keys :=
    (getOr_strings_eq_ok_iff.1 hkeys).symm.trans h.keys
  simpa [Document.ofStrings, List.map_inj_right] using hsame

theorem described_of_shape {members : Members} {file : Option Path} {m : Mapping}
    (hmarked : isMapping (.object members) = true) (h : shape file (.object members) = .ok m) :
    Described members m.keys := by
  obtain ⟨source, -, hkeys, -, hobject⟩ := exists_of_shape h
  cases hobject hmarked
  have hrecord := (acceptsRecord_shape file).isRecordOf ⟨m, h⟩
  obtain ⟨_, hwritten, hshaped⟩ | ⟨items, hwritten, -⟩ := hrecord
  · cases hwritten
    exact
      { app := isMapping_object_iff.1 hmarked
        version := hshaped.version
        id := hshaped.id
        name := hshaped.name
        category := hshaped.category
        description := hshaped.description
        keys := getOr_strings_eq_ok_iff.1 hkeys
        template := fun d hd =>
          ControlTemplate.acceptsRecord_shape.isRecordOf (hshaped.template d hd) }
  · cases hwritten

/-! ## Reading what has been written -/

/-- The members that a written mapping may have. -/
def entries (m : Mapping) : Shape.Entries where
  list := [
    ("app", some (.string mappingApp)),
    ("version", some (.string m.version)),
    ("id", some (.string m.id)),
    ("name", some (.string m.name)),
    ("category", m.category.map .string),
    ("description", m.description.map .string),
    ("keys", some (.ofStrings m.keys)),
    ("control_template", some m.template.toDocument)]
  distinct := by
    show ["app", "version", "id", "name", "category", "description", "keys",
      "control_template"].Nodup
    decide

variable {m : Mapping}

theorem toDocument_eq : m.toDocument = m.entries.toDocument := rfl

theorem shape_toDocument (file : Option Path) (h : m.template.Readable) :
    shape file m.toDocument = .ok { m with file } := by
  have hversionWritten :
      Members.get? m.entries.source.members "version" = some (.string m.version) :=
    m.entries.get?_source (by simp [entries])
  have hkeysWritten :
      Members.get? m.entries.source.members "keys" = some (.ofStrings m.keys) :=
    m.entries.get?_source (by simp [entries])
  have happ : m.entries.source.required "app" Shape.string = .ok mappingApp :=
    string_of_get? (m.entries.get?_source (by simp [entries]))
  have hversion :
      m.entries.source.getOr "version" Shape.string currentVersion = .ok m.version :=
    getOr_of_get? hversionWritten rfl
  have hid : m.entries.source.required "id" Shape.string = .ok m.id :=
    string_of_get? (m.entries.get?_source (by simp [entries]))
  have hname : m.entries.source.option "name" Shape.string = .ok (some m.name) :=
    text_of_get? (m.entries.get?_source (by simp [entries]))
  have hcategory : m.entries.source.option "category" Shape.string = .ok m.category :=
    text_of_get? (m.entries.get?_source (by simp [entries]))
  have hdescription :
      m.entries.source.option "description" Shape.string = .ok m.description :=
    text_of_get? (m.entries.get?_source (by simp [entries]))
  have hkeys :
      m.entries.source.getOr "keys" (Shape.list Shape.string) [] = .ok m.keys :=
    getOr_of_get? hkeysWritten (Shape.list_string_eq_ok_iff.2 rfl)
  have htemplate : m.entries.source.getOr "control_template" ControlTemplate.shape {} =
      .ok m.template :=
    getOr_of_get? (m.entries.get?_source (by simp [entries])) (ControlTemplate.shape_toDocument h)
  rw [toDocument_eq, shape, Shape.Entries.record_toDocument]
  · rw [happ, hversion, hid, hname, hcategory, hdescription, hkeys, htemplate]
    rfl
  · simp only [fields, List.forall_mem_cons]
    exact ⟨passes_of_required happ, passes_of_getOr hversion, passes_of_required hid,
      passes_of_getOr hname, passes_of_getOr hcategory, passes_of_getOr hdescription,
      passes_of_getOr hkeys, passes_of_getOr htemplate, by simp⟩

theorem readable_of_shape {d : Document} {file : Option Path} (h : shape file d = .ok m) :
    m.template.Readable := by
  obtain ⟨source, -, -, htemplate, -⟩ := exists_of_shape h
  rcases of_getOr htemplate with ⟨-, hdefault⟩ | ⟨written, -, hread⟩
  · rw [hdefault]
    simp [ControlTemplate.Readable]
  · exact ControlTemplate.readable_of_shape hread

/-- What parsing makes of a marked document that has the shape of a mapping. -/
theorem parse_of_shape {d : Document} {file : Option Path} (hmarked : isMapping d = true)
    (h : shape file d = .ok m) :
    (SoundKeys m.keys ∧ parse d file = .ok m) ∨
      ¬SoundKeys m.keys ∧ ∃ fault : MappingFault, fault.Blames m.keys ∧
        parse d file = .error (.mapping file fault) := by
  have hread : (shape file d).mapError (WorkerError.shape file) = pure m := by
    rw [h]
    rfl
  have hmarks : ¬(!isMapping d) = true := by simp [hmarked]
  rcases keyFault?_cases m.keys with ⟨hsound, hnone⟩ | ⟨hunsound, fault, hfault, hblames⟩
  · refine .inl ⟨hsound, ?_⟩
    simp only [parse, if_neg hmarks, hread, pure_bind, hnone]
    rfl
  · refine .inr ⟨hunsound, fault, hblames, ?_⟩
    simp only [parse, if_neg hmarks, hread, pure_bind, hfault]

theorem exists_of_parse {d : Document} {file : Option Path} (h : parse d file = .ok m) :
    isMapping d = true ∧ shape file d = .ok m := by
  cases hmarked : isMapping d with
  | false =>
    unfold parse at h
    rw [hmarked] at h
    cases h
  | true =>
    refine ⟨rfl, ?_⟩
    cases hshape : shape file d with
    | error fault =>
      unfold parse at h
      rw [hmarked, hshape] at h
      cases h
    | ok read =>
      rcases parse_of_shape hmarked hshape with ⟨-, hread⟩ | ⟨-, fault, -, hrefused⟩
      · cases hread.symm.trans h
        rfl
      · cases hrefused.symm.trans h

theorem isMapping_toDocument : isMapping m.toDocument = true :=
  isMapping_object_iff.2 (m.entries.get?_source (by simp [entries]))

/-- A mapping that has been read has sound keys, its document described it, and reading what it is
written as gives the same mapping. Conversely a document that describes keys is read as a mapping of
them if they are sound, and is refused for one of them if they are not. -/
theorem parse_written_mapping (d : Document) (file : Option Path) :
    (∀ m, parse d file = .ok m → SoundKeys m.keys ∧
      (∃ members, d = .object members ∧ Described members m.keys) ∧
      parse m.toDocument m.file = .ok m) ∧
    ∀ (members : Members) keys, d = .object members → members.WellFormed → Described members keys →
      (SoundKeys keys → ∃ m, parse d file = .ok m ∧ m.keys = keys) ∧
      (¬SoundKeys keys → ∃ fault : MappingFault, fault.Blames keys ∧
        parse d file = .error (.mapping file fault)) := by
  constructor
  · intro m h
    obtain ⟨hmarked, hshape⟩ := exists_of_parse h
    obtain ⟨source, -, -, -, hobject⟩ := exists_of_shape hshape
    have hd := hobject hmarked
    have hsound : SoundKeys m.keys := by
      rcases parse_of_shape hmarked hshape with ⟨hsound, -⟩ | ⟨-, fault, -, hrefused⟩
      · exact hsound
      · cases hrefused.symm.trans h
    refine ⟨hsound, ⟨source.members, hd, ?_⟩, ?_⟩
    · rw [hd] at hmarked hshape
      exact described_of_shape hmarked hshape
    · have hagain := shape_toDocument m.file (readable_of_shape hshape)
      rcases parse_of_shape isMapping_toDocument hagain with ⟨-, hread⟩ | ⟨hunsound, -⟩
      · exact hread
      · exact absurd hsound hunsound
  · rintro members keys rfl hwell hdescribed
    obtain ⟨m, hshape, rfl⟩ := exists_shape_of_described file hwell hdescribed
    have hmarked := isMapping_object_iff.2 hdescribed.app
    rcases parse_of_shape hmarked hshape with ⟨hsound, hread⟩ | ⟨hunsound, hrefused⟩
    · exact ⟨fun _ => ⟨m, hread, rfl⟩, fun h => absurd hsound h⟩
    · exact ⟨fun h => absurd h hunsound, fun _ => hrefused⟩

/-- The members of a document with these keys; its template is written as an array. -/
def weights (keys : List String) : Members := [
  ("comment", .null),
  ("keys", .ofStrings keys),
  ("app", .string "mapping"),
  ("category", .null),
  ("control_template", .array [.string "float", .null]),
  ("id", .string "weights")]

theorem wellFormed_weights (keys : List String) : (weights keys).WellFormed := by
  apply Members.wellFormed_of_forall
  · show ["comment", "keys", "app", "category", "control_template", "id"].Nodup
    decide
  · simp [weights, Document.ofStrings]

theorem described_weights (keys : List String) : Described (weights keys) keys where
  app := rfl
  version := by simp [Members.IfThere, weights, Members.get?_cons]
  id := ⟨_, rfl, _, rfl⟩
  name := .inl (by simp [Members.Absent, weights, Members.get?_cons])
  category := .inl (Members.absent_of_null rfl)
  description := .inl (by simp [Members.Absent, weights, Members.get?_cons])
  keys := rfl
  template := by
    intro d hd
    cases hd
    have hcaption : Members.MayHave IsText
        (["value_type", "default", "caption"].zip [.string "float", .null]) "caption" :=
      .inl (by simp [Members.Absent, Members.get?_cons])
    exact .inr ⟨_, rfl, by decide, ⟨_, rfl, _, rfl⟩, hcaption⟩

/-- What is read if the keys are sound. -/
def weightsRead : Mapping where
  version := currentVersion
  id := "weights"
  name := "weights"
  keys := ["red", "green"]
  template := ⟨"float", none, none⟩

theorem parse_written_weights :
    (parse (.object (weights ["red", "green"])) none = .ok weightsRead ∧
      SoundKeys weightsRead.keys ∧ parse weightsRead.toDocument none = .ok weightsRead) ∧
    ((weights ["red", "red"]).WellFormed ∧ Described (weights ["red", "red"]) ["red", "red"] ∧
      ¬SoundKeys ["red", "red"]) ∧
    ∃ fault : MappingFault, fault.Blames ["red", "red"] ∧
      parse (.object (weights ["red", "red"])) none = .error (.mapping none fault) := by
  have hread : parse (.object (weights ["red", "green"])) none = .ok weightsRead := rfl
  have hunsound : ¬SoundKeys ["red", "red"] := by simp [SoundKeys]
  have hwell := wellFormed_weights ["red", "red"]
  have hdescribed := described_weights ["red", "red"]
  obtain ⟨hsound, -, hagain⟩ := (parse_written_mapping _ none).1 _ hread
  refine ⟨⟨hread, hsound, hagain⟩, ⟨hwell, hdescribed, hunsound⟩, ?_⟩
  exact ((parse_written_mapping _ none).2 _ _ rfl hwell hdescribed).2 hunsound

end Mapping

end ExecutorHost
