import ExecutorHost.Proofs.Mapping.Writing
import ExecutorHost.Proofs.Document.Overlay

/-!
# Mapping documents

The entries of a mapping document are put into an object one after another, where an entry takes the
place of an earlier one of its key. The keys of a mapping that has been read are distinct, so no
entry meets another, and making a document is a projection: it selects the keys, in their order, and
depends on nothing but the values that the parameters have there.
-/

namespace ExecutorHost

namespace Members

theorem ofEntries_of_distinct {entries : Members} (h : Distinct entries) :
    ofEntries entries = entries :=
  nil_overlay h

/-- Certain keys in their order, each with its value if it has one. -/
def select (keys : List String) (value : String → Option Document) : Members :=
  keys.filterMap fun key => (value key).map (key, ·)

variable {value : String → Option Document}

theorem keys_select (names : List String) :
    keys (select names value) = names.filter fun key => (value key).isSome := by
  induction names with
  | nil => rfl
  | cons key rest ih =>
    rw [select] at ih ⊢
    cases hvalue : value key with
    | none => simpa [hvalue] using ih
    | some v => simpa [hvalue] using ih

theorem get?_select (names : List String) (key : String) :
    get? (select names value) key = if key ∈ names then value key else none := by
  induction names with
  | nil => rfl
  | cons name rest ih =>
    rw [select] at ih ⊢
    by_cases hname : name = key
    · subst hname
      cases hvalue : value name with
      | none => simp [hvalue, ih]
      | some v => simp [hvalue, get?_cons]
    · have hother : key ≠ name := fun e => hname e.symm
      cases hvalue : value name with
      | none => simp [hvalue, ih, hother]
      | some v => simp [hvalue, ih, hother, get?_cons, hname]

theorem distinct_select {names : List String} (h : names.Nodup) :
    Distinct (select names value) := by
  rw [Distinct, keys_select]
  exact h.filter _

theorem select_congr {names : List String} {other : String → Option Document}
    (h : ∀ key ∈ names, value key = other key) : select names value = select names other := by
  apply List.filterMap_congr
  intro key hkey
  rw [h key hkey]

end Members

namespace Mapping

variable {m : Mapping}

theorem soundKeys_of_parse {d : Document} {file : Option Path} (h : parse d file = .ok m) :
    SoundKeys m.keys := by
  obtain ⟨hmarked, hshape⟩ := exists_of_parse h
  rcases parse_of_shape hmarked hshape with ⟨hsound, -⟩ | ⟨-, fault, -, hrefused⟩
  · exact hsound
  · cases hrefused.symm.trans h

/-- The value of a key in the document of parameters. -/
def valueOf (m : Mapping) (parameters : Members) (key : String) : Option Document :=
  (Members.get? parameters key).or m.template.default

theorem create_eq (h : m.keys.Nodup) (parameters : Members) :
    m.create parameters = Members.select m.keys (m.valueOf parameters) :=
  Members.ofEntries_of_distinct (Members.distinct_select h)

theorem isSome_valueOf_iff {parameters : Members} {key : String} :
    (m.valueOf parameters key).isSome = true ↔
      key ∈ Members.keys parameters ∨ m.template.default.isSome = true := by
  rw [valueOf, Option.isSome_or, Bool.or_eq_true, Members.mem_keys_iff, Option.isSome_iff_exists]

/-- Looking a key up again after the defaults have been filled in changes nothing. -/
theorem valueOf_create (h : m.keys.Nodup) (parameters : Members) {key : String}
    (hkey : key ∈ m.keys) :
    m.valueOf (m.create parameters) key = m.valueOf parameters key := by
  have hfilled : Members.get? (m.create parameters) key = m.valueOf parameters key := by
    rw [create_eq h, Members.get?_select, if_pos hkey]
  rw [valueOf, hfilled, valueOf]
  cases Members.get? parameters key <;> cases m.template.default <;> rfl

/-- The document that a mapping makes of parameters has the keys of the mapping, in their order and
each once, for which the parameters or the template have a value, and the value of the parameters
goes first. It depends only on the values that the parameters have for the keys, and the document
made of a document is the same document. -/
theorem create_projects_onto_keys {d : Document} {file : Option Path} {m : Mapping}
    (h : parse d file = .ok m) :
    (∀ parameters,
      Members.keys (m.create parameters) =
        m.keys.filter (fun key =>
          key ∈ Members.keys parameters ∨ m.template.default.isSome = true) ∧
      Members.Distinct (m.create parameters) ∧
      ∀ key ∈ m.keys,
        (∀ value, Members.get? parameters key = some value →
          Members.get? (m.create parameters) key = some value) ∧
        (Members.get? parameters key = none →
          Members.get? (m.create parameters) key = m.template.default)) ∧
    (∀ parameters others,
      (∀ key ∈ m.keys, Members.get? parameters key = Members.get? others key) →
        m.create parameters = m.create others) ∧
    ∀ parameters, m.create (m.create parameters) = m.create parameters := by
  obtain ⟨-, hdistinct⟩ := soundKeys_of_parse h
  refine ⟨fun parameters => ?_, fun parameters others hsame => ?_, fun parameters => ?_⟩
  · rw [create_eq hdistinct]
    refine ⟨?_, Members.distinct_select hdistinct, fun key hkey => ?_⟩
    · rw [Members.keys_select]
      apply List.filter_congr
      intro key _
      rw [Bool.eq_iff_iff, decide_eq_true_iff, isSome_valueOf_iff]
    · rw [Members.get?_select, if_pos hkey, valueOf]
      constructor
      · intro value hvalue
        rw [hvalue, Option.some_or]
      · intro hnone
        rw [hnone, Option.none_or]
  · rw [create_eq hdistinct, create_eq hdistinct]
    apply Members.select_congr
    intro key hkey
    rw [valueOf, hsame key hkey, valueOf]
  · rw [create_eq hdistinct (m.create parameters), create_eq hdistinct parameters]
    apply Members.select_congr
    intro key hkey
    rw [← create_eq hdistinct parameters]
    exact valueOf_create hdistinct parameters hkey

/-- A document of a mapping whose template has a default. -/
def palette : Members := [
  ("app", .string "mapping"),
  ("id", .string "palette"),
  ("keys", .ofStrings ["red", "green", "blue"]),
  ("control_template",
    .object [("value_type", .string "float"), ("default", .number (.whole 1))])]

/-- What is read from it. -/
def paletteRead : Mapping where
  version := currentVersion
  id := "palette"
  name := "palette"
  keys := ["red", "green", "blue"]
  template := ⟨"float", some (.number (.whole 1)), none⟩

/-- Parameters with a null, and with a parameter that is no key. -/
def tinted : Members := [("alpha", .bool true), ("green", .null)]

theorem create_projects_tinted :
    parse (.object palette) none = .ok paletteRead ∧
      Members.keys (paletteRead.create tinted) = ["red", "green", "blue"] ∧
      ("green" ∈ paletteRead.keys ∧ Members.get? tinted "green" = some .null ∧
        Members.get? (paletteRead.create tinted) "green" = some .null) ∧
      ("blue" ∈ paletteRead.keys ∧ Members.get? tinted "blue" = none ∧
        Members.get? (paletteRead.create tinted) "blue" = some (.number (.whole 1))) ∧
      ((∀ key ∈ paletteRead.keys,
          Members.get? tinted key = Members.get? [("green", .null), ("beta", .null)] key) ∧
        paletteRead.create tinted = paletteRead.create [("green", .null), ("beta", .null)]) ∧
      paletteRead.create (paletteRead.create tinted) = paletteRead.create tinted := by
  have hread : parse (.object palette) none = .ok paletteRead := rfl
  obtain ⟨hselects, hdepends, hagain⟩ := create_projects_onto_keys hread
  obtain ⟨hkeys, -, hvalues⟩ := hselects tinted
  have hgreen : "green" ∈ paletteRead.keys := by decide
  have hblue : "blue" ∈ paletteRead.keys := by decide
  have hsame : ∀ key ∈ paletteRead.keys,
      Members.get? tinted key = Members.get? [("green", .null), ("beta", .null)] key := by
    simp [paletteRead, tinted, Members.get?_cons]
  exact ⟨hread, hkeys, ⟨hgreen, rfl, (hvalues _ hgreen).1 _ rfl⟩,
    ⟨hblue, rfl, (hvalues _ hblue).2 rfl⟩, ⟨hsame, hdepends _ _ hsame⟩, hagain tinted⟩

end Mapping

end ExecutorHost
