import ExecutorHost.Proofs.Executor.Controls

/-!
# Written specifications

A specification may be written in many ways: records as objects or as arrays, optional fields left
out or null, with members of other names between them. All of them are read, and the written form of
what has been read is one more of them, in which each field stands once, and only where it says
something. So reading it again gives the same specification.

The one value that cannot be written is a control with null as its default, for it would be read as a
control without default; reading never gives such a control.
-/

namespace ExecutorHost

open Shape.Source

namespace DataPort

/-- The members that a written port may have. -/
def entries (p : DataPort) : Shape.Entries where
  list := [
    ("name", some (.string p.name)),
    ("value_type", some (.string p.valueType)),
    ("caption", p.caption.map .string)]
  distinct := by
    show ["name", "value_type", "caption"].Nodup
    decide

variable (p : DataPort)

theorem toDocument_eq : p.toDocument = p.entries.toDocument := by
  obtain ⟨name, valueType, caption⟩ := p
  cases caption <;> rfl

theorem shape_toDocument : shape p.toDocument = .ok p := by
  have hname : p.entries.source.required "name" Shape.string = .ok p.name :=
    string_of_get? (p.entries.get?_source (by simp [entries]))
  have hvalueType : p.entries.source.required "value_type" Shape.string = .ok p.valueType :=
    string_of_get? (p.entries.get?_source (by simp [entries]))
  have hcaption : p.entries.source.option "caption" Shape.string = .ok p.caption :=
    text_of_get? (p.entries.get?_source (by simp [entries]))
  rw [toDocument_eq, shape, Shape.Entries.record_toDocument]
  · rw [hname, hvalueType, hcaption]
    rfl
  · simp only [fields, List.forall_mem_cons]
    exact ⟨passes_of_required hname, passes_of_required hvalueType, passes_of_getOr hcaption,
      by simp⟩

end DataPort

namespace Control

/-- A control that can be read again: its default, if it has one, is not null. -/
def Readable (c : Control) : Prop := c.default ≠ some .null

/-- The members that a written control may have. -/
def entries (c : Control) : Shape.Entries where
  list := [
    ("name", some (.string c.name)),
    ("value_type", some (.string c.valueType)),
    ("default", c.default),
    ("settings_id", c.settingsId.map .string),
    ("caption", c.caption.map .string),
    ("description", c.description.map .string)]
  distinct := by
    show ["name", "value_type", "default", "settings_id", "caption", "description"].Nodup
    decide

variable {c : Control}

theorem toDocument_eq : c.toDocument = c.entries.toDocument := rfl

theorem shape_toDocument (h : c.Readable) : shape c.toDocument = .ok c := by
  have hname : c.entries.source.required "name" Shape.string = .ok c.name :=
    string_of_get? (c.entries.get?_source (by simp [entries]))
  have hvalueType : c.entries.source.required "value_type" Shape.string = .ok c.valueType :=
    string_of_get? (c.entries.get?_source (by simp [entries]))
  have hdefault : c.entries.source.option "default" Shape.any = .ok c.default :=
    value_of_get? h (c.entries.get?_source (by simp [entries]))
  have hsettingsId : c.entries.source.option "settings_id" Shape.string = .ok c.settingsId :=
    text_of_get? (c.entries.get?_source (by simp [entries]))
  have hcaption : c.entries.source.option "caption" Shape.string = .ok c.caption :=
    text_of_get? (c.entries.get?_source (by simp [entries]))
  have hdescription :
      c.entries.source.option "description" Shape.string = .ok c.description :=
    text_of_get? (c.entries.get?_source (by simp [entries]))
  rw [toDocument_eq, shape, Shape.Entries.record_toDocument]
  · rw [hname, hvalueType, hdefault, hsettingsId, hcaption, hdescription]
    rfl
  · simp only [fields, List.forall_mem_cons]
    exact ⟨passes_of_required hname, passes_of_required hvalueType, passes_of_getOr hdefault,
      passes_of_getOr hsettingsId, passes_of_getOr hcaption, passes_of_getOr hdescription, by simp⟩

theorem readable_of_shape {d : Document} (h : shape d = .ok c) : c.Readable := by
  obtain ⟨source, hbuild, -⟩ := Shape.exists_of_record h
  obtain ⟨name, -, hbuild⟩ := exists_of_bind_eq_ok hbuild
  obtain ⟨valueType, -, hbuild⟩ := exists_of_bind_eq_ok hbuild
  obtain ⟨default, hdefault, hbuild⟩ := exists_of_bind_eq_ok hbuild
  obtain ⟨settingsId, -, hbuild⟩ := exists_of_bind_eq_ok hbuild
  obtain ⟨caption, -, hbuild⟩ := exists_of_bind_eq_ok hbuild
  obtain ⟨description, -, hbuild⟩ := exists_of_bind_eq_ok hbuild
  cases hbuild
  exact ne_null_of_value hdefault

end Control

namespace Role

/-- The members of a written role. -/
def entries (r : Role) : Shape.Entries where
  list := [
    ("name", some (.string r.name)),
    ("settings", some (.bool r.settings))]
  distinct := by
    show ["name", "settings"].Nodup
    decide

variable (r : Role)

theorem toDocument_eq : r.toDocument = r.entries.toDocument := rfl

theorem shape_toDocument : shape r.toDocument = .ok r := by
  have hname : r.entries.source.required "name" Shape.string = .ok r.name :=
    string_of_get? (r.entries.get?_source (by simp [entries]))
  have hwritten : Members.get? r.entries.source.members "settings" = some (.bool r.settings) :=
    r.entries.get?_source (by simp [entries])
  have hsettings : r.entries.source.getOr "settings" Shape.bool false = .ok r.settings :=
    getOr_of_get? hwritten rfl
  rw [toDocument_eq, shape, Shape.Entries.record_toDocument]
  · rw [hname, hsettings]
    rfl
  · simp only [fields, List.forall_mem_cons]
    exact ⟨passes_of_required hname, passes_of_getOr hsettings, by simp⟩

end Role

namespace Specification

/-- A specification that can be read again: all its controls can. -/
def Readable (s : Specification) : Prop := ∀ c ∈ s.controls, c.Readable

/-- The members that a written specification may have. -/
def entries (s : Specification) : Shape.Entries where
  list := [
    ("app", some (.string executorApp)),
    ("version", some (.string s.version)),
    ("id", some (.string s.id)),
    ("name", some (.string s.name)),
    ("category", s.category.map .string),
    ("description", s.description.map .string),
    ("role", s.role.map Role.toDocument),
    ("in_ports", if s.inPorts.isEmpty then none
      else some (.array (s.inPorts.map DataPort.toDocument))),
    ("out_ports", if s.outPorts.isEmpty then none
      else some (.array (s.outPorts.map DataPort.toDocument))),
    ("controls", if s.controls.isEmpty then none
      else some (.array (s.controls.map Control.toDocument)))]
  distinct := by
    show ["app", "version", "id", "name", "category", "description", "role", "in_ports",
      "out_ports", "controls"].Nodup
    decide

variable {s : Specification}

theorem toDocument_eq : s.toDocument = s.entries.toDocument := rfl

theorem shape_toDocument (file : Option Path) (h : s.Readable) :
    shape file s.toDocument = .ok { s with file } := by
  have happ : s.entries.source.required "app" Shape.string = .ok executorApp :=
    string_of_get? (s.entries.get?_source (by simp [entries]))
  have hwritten : Members.get? s.entries.source.members "version" = some (.string s.version) :=
    s.entries.get?_source (by simp [entries])
  have hversion :
      s.entries.source.getOr "version" Shape.string currentVersion = .ok s.version :=
    getOr_of_get? hwritten rfl
  have hid : s.entries.source.required "id" Shape.string = .ok s.id :=
    string_of_get? (s.entries.get?_source (by simp [entries]))
  have hname : s.entries.source.option "name" Shape.string = .ok (some s.name) :=
    text_of_get? (s.entries.get?_source (by simp [entries]))
  have hcategory : s.entries.source.option "category" Shape.string = .ok s.category :=
    text_of_get? (s.entries.get?_source (by simp [entries]))
  have hdescription :
      s.entries.source.option "description" Shape.string = .ok s.description :=
    text_of_get? (s.entries.get?_source (by simp [entries]))
  have hrole : s.entries.source.option "role" Role.shape = .ok s.role :=
    option_of_get? (fun r _ => r.shape_toDocument) (by simp [Role.toDocument])
      (s.entries.get?_source (by simp [entries]))
  have hinPorts :
      s.entries.source.getOr "in_ports" (Shape.list DataPort.shape) [] = .ok s.inPorts :=
    list_of_get? (fun p _ => p.shape_toDocument) (s.entries.get?_source (by simp [entries]))
  have houtPorts :
      s.entries.source.getOr "out_ports" (Shape.list DataPort.shape) [] = .ok s.outPorts :=
    list_of_get? (fun p _ => p.shape_toDocument) (s.entries.get?_source (by simp [entries]))
  have hcontrols :
      s.entries.source.getOr "controls" (Shape.list Control.shape) [] = .ok s.controls :=
    list_of_get? (fun c hc => Control.shape_toDocument (h c hc))
      (s.entries.get?_source (by simp [entries]))
  rw [toDocument_eq, shape, Shape.Entries.record_toDocument]
  · rw [happ, hversion, hid, hname, hcategory, hdescription, hrole, hinPorts, houtPorts, hcontrols]
    rfl
  · simp only [fields, List.forall_mem_cons]
    exact ⟨passes_of_required happ, passes_of_getOr hversion, passes_of_required hid,
      passes_of_getOr hname, passes_of_getOr hcategory, passes_of_getOr hdescription,
      passes_of_getOr hrole, passes_of_getOr hinPorts, passes_of_getOr houtPorts,
      passes_of_getOr hcontrols, by simp⟩

theorem readable_of_parse {d : Document} {file : Option Path} (h : parse d file = .ok s) :
    s.Readable := by
  obtain ⟨source, -, hcontrols⟩ := exists_of_parse h
  rcases of_getOr hcontrols with ⟨-, hnone⟩ | ⟨list, -, hlist⟩
  · intro c hc
    rw [hnone] at hc
    cases hc
  · intro c hc
    obtain ⟨written, hread⟩ := Shape.exists_of_mem_list hlist hc
    exact Control.readable_of_shape hread

theorem isSpecification_toDocument : isSpecification s.toDocument = true := by
  have hmarker : Members.get? s.entries.source.members "app" = some (.string executorApp) :=
    s.entries.get?_source (by simp [entries])
  show ((Members.get? s.entries.source.members "app").bind Document.string? ==
    some executorApp) = true
  rw [hmarker]
  rfl

/-- A specification that can be read again is read from what it is written as. -/
theorem parse_toDocument (file : Option Path) (h : s.Readable) :
    parse s.toDocument file = .ok { s with file } := by
  unfold parse
  rw [if_pos isSpecification_toDocument, shape_toDocument file h]
  rfl

/-- Whatever document a specification has been read from, reading what it is written as gives the
same specification, as one of the file it is read from now, and this is written in the same way. -/
theorem parse_written_specification {d : Document} {file : Option Path} {s : Specification}
    (h : parse d file = .ok s) (other : Option Path) :
    parse s.toDocument other = .ok { s with file := other } ∧
      toDocument { s with file := other } = s.toDocument :=
  ⟨parse_toDocument other (readable_of_parse h), rfl⟩

/-- A specification with records as arrays, members that are null or left out, and unknown ones. -/
def liberal : Document :=
  .object [
    ("comment", .array [.null]),
    ("role", .array [.string "blur"]),
    ("id", .string "soft-blur"),
    ("category", .null),
    ("app", .string "executor"),
    ("in_ports", .array [
      .array [.string "image", .string "matrix", .null],
      .object [("value_type", .string "matrix"), ("name", .string "mask"), ("unit", .null)]]),
    ("out_ports", .array []),
    ("controls", .array [
      .array [.string "radius", .string "int", .number (.whole 3)],
      .object [("default", .null), ("name", .string "kernel"), ("value_type", .string "settings"),
        ("settings_id", .string "kernel-settings")]])]

/-- The specification that this document describes. -/
def liberalRead : Specification where
  version := currentVersion
  id := "soft-blur"
  name := "soft-blur"
  role := some ⟨"blur", false⟩
  inPorts := [⟨"image", "matrix", none⟩, ⟨"mask", "matrix", none⟩]
  controls := [⟨"radius", "int", some (.number (.whole 3)), none, none, none⟩,
    ⟨"kernel", "settings", none, some "kernel-settings", none, none⟩]

theorem parse_written_liberal :
    parse liberal none = .ok liberalRead ∧
      parse liberalRead.toDocument (some ⟨"copy.json"⟩) =
        .ok { liberalRead with file := some ⟨"copy.json"⟩ } ∧
      toDocument { liberalRead with file := some ⟨"copy.json"⟩ } = liberalRead.toDocument :=
  have hread : parse liberal none = .ok liberalRead := rfl
  ⟨hread, parse_written_specification hread _⟩

end Specification

end ExecutorHost
