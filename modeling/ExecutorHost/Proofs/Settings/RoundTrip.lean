import ExecutorHost.Proofs.Settings.Level
import ExecutorHost.Proofs.Outcome
import ExecutorHost.Settings.Executor

/-!
# Round trips of settings

Combining and splitting undo each other. What splitting returns is what combining shows, although
it is computed from parameters that have been written over. Settings made from the written
parameters carry a document that conforms to the controls. What combining shows does not change if
it is combined once more. Main statements: `Combiner.split_shows_combine`,
`Combiner.create_carries_document` and `Combiner.combine_shows_itself`.
-/

namespace ExecutorHost

/-- An object with its members changed, or else the value itself. -/
def Document.onObject (f : Members → Members) : Document → Document
  | .object members => .object (f members)
  | value => value

namespace SettingsTree

/-! ## Layering twice -/

theorem distinctKeys_layered {t : SettingsTree} (hn : t.DistinctNames) (parameters : Members)
    {document : Members} (hk : t.DistinctKeys document) :
    t.DistinctKeys (t.layered parameters document) := by
  induction t using level_induction generalizing parameters document with
  | level t ih =>
    rw [distinctKeys_iff hn]
    intro key control inner hat upper hget
    rw [get?_layered_of_nested hn hat] at hget
    have hinner := hn.of_at? hat
    obtain ⟨hdistinct, hbelow⟩ := hk.objectAt hn hat
    rcases orLayers_get?_cases document key with hlayers | ⟨value, hdoc, hne⟩
    · rw [hlayers] at hget
      cases hget
      exact ⟨distinct_layered hinner _ hdistinct, ih key control inner hat hinner _ hbelow⟩
    · rw [hdoc, orLayers_of_ne hne] at hget
      exact absurd (Option.some.inj hget) (hne upper)

theorem layered_layered {t : SettingsTree} (hn : t.DistinctNames) (parameters : Members)
    {document : Members} (hd : Members.Distinct document) (hk : t.DistinctKeys document) :
    t.layered parameters (t.layered parameters document) = t.layered parameters document := by
  induction t using level_induction generalizing parameters document with
  | level t ih =>
    refine Members.eq_of_keys_eq (distinct_layered hn _ (distinct_layered hn _ hd))
      (Members.keys_followedBy_followedBy (keys_shown t parameters _ _) document) fun key => ?_
    rcases hat : t.at? key with _ | ⟨control, _ | inner⟩
    · rw [get?_layered_of_none hat]
    · rw [get?_layered_of_plain hn hat, get?_layered_of_plain hn hat]
      cases Members.get? document key <;> cases control.plainValue parameters <;> rfl
    · have hinner := hn.of_at? hat
      obtain ⟨hdistinct, hbelow⟩ := hk.objectAt hn hat
      have hget := get?_layered_of_nested hn hat parameters document
      rw [get?_layered_of_nested hn hat, hget]
      rcases orLayers_get?_cases document key with hlayers | ⟨value, hdoc, hne⟩
      · rw [hlayers] at hget ⊢
        rw [Members.objectAt_of_object hget, ih key control inner hat hinner _ hdistinct hbelow]
        rfl
      · rw [hdoc, orLayers_of_ne hne, orLayers_of_ne hne]

/-! ## Layers of written parameters -/

/-- Parameters that a document has been written into show the same under that document. -/
theorem sameEntries_layered_write {t : SettingsTree} (hn : t.DistinctNames) (parameters : Members)
    {document : Members} (hd : Members.Distinct document) (hk : t.DistinctKeys document) :
    Members.SameEntries (t.layered (t.write document parameters) document)
      (t.layered parameters document) := by
  induction t using level_induction generalizing parameters document with
  | level t ih =>
    refine .of_rel (distinct_layered hn _ hd) (distinct_layered hn _ hd) fun key => ?_
    rcases hat : t.at? key with _ | ⟨control, _ | inner⟩
    · rw [get?_layered_of_none hat, get?_layered_of_none hat]
      exact Members.rel_of_eq rfl
    · rw [get?_layered_of_plain hn hat, get?_layered_of_plain hn hat]
      cases hdoc : Members.get? document key with
      | some value => exact Members.rel_of_eq rfl
      | none =>
        have hkept := get?_write_of_plain hn hat document parameters
        rw [hdoc, Option.none_or, ← name_of_at? hat] at hkept
        exact Members.rel_of_eq (control.plainValue_congr hkept)
    · rw [get?_layered_of_nested hn hat, get?_layered_of_nested hn hat]
      obtain ⟨hdistinct, hbelow⟩ := hk.objectAt hn hat
      rcases orLayers_get?_cases document key with hlayers | ⟨value, hdoc, hne⟩
      · rw [hlayers, hlayers, objectAt_write hn hat hlayers]
        exact .some (ih key control inner hat (hn.of_at? hat) _ hdistinct hbelow)
      · rw [hdoc, orLayers_of_ne hne, orLayers_of_ne hne]
        exact Members.rel_of_eq rfl

/-! ## Entries of controls -/

/-- The value of a key without the entries below that have no control. -/
def restrictValue : SettingsTree → String → Document → Document
  | .done, _, value => value
  | .plain _ rest, key, value => rest.restrictValue key value
  | .nested control inner rest, key, value =>
    if control.name = key then
      value.onObject fun below =>
        (below.filter fun e => e.1 ∈ inner.names).map fun e => (e.1, inner.restrictValue e.1 e.2)
    else rest.restrictValue key value

/-- The entries of an object whose keys are names of controls, at every level. -/
def restrict (t : SettingsTree) (members : Members) : Members :=
  (members.filter fun e => e.1 ∈ t.names).map fun e => (e.1, t.restrictValue e.1 e.2)

section Restrict

variable {t : SettingsTree} {key : String} {control : Control}

theorem restrictValue_of_none (h : t.at? key = none) (value : Document) :
    t.restrictValue key value = value := by
  induction t with
  | done => rfl
  | plain c rest ih =>
    rw [at?] at h
    split at h
    · cases h
    · exact ih h
  | nested c inner rest _ ih =>
    rw [at?] at h
    split at h
    · cases h
    · rename_i hc
      rw [restrictValue, if_neg hc, ih h]

/-- The value of a plain control is kept whole. -/
theorem restrictValue_of_plain (hn : t.DistinctNames) (h : t.at? key = some (control, none))
    (value : Document) : t.restrictValue key value = value := by
  induction t with
  | done => rfl
  | plain c rest ih =>
    rw [at?] at h
    split at h
    · rename_i hc
      exact restrictValue_of_none (t := rest) (hc ▸ at?_eq_none_iff.2 hn.1) value
    · exact ih hn.2 h
  | nested c inner rest _ ih =>
    rw [at?] at h
    split at h
    · cases h
    · rename_i hc
      rw [restrictValue, if_neg hc, ih hn.2.2 h]

/-- An object under a sub-settings control is restricted in turn. -/
theorem restrictValue_of_nested {inner : SettingsTree} (h : t.at? key = some (control, some inner))
    (below : Members) : t.restrictValue key (.object below) = .object (inner.restrict below) := by
  induction t with
  | done => cases h
  | plain c rest ih =>
    rw [at?] at h
    split at h
    · cases h
    · exact ih h
  | nested c under rest _ ih =>
    rw [at?] at h
    rw [restrictValue]
    split at h
    · rename_i hc
      cases h
      rw [if_pos hc]
      rfl
    · rename_i hc
      rw [if_neg hc]
      exact ih h

theorem get?_restrict (t : SettingsTree) (members : Members) (key : String) :
    Members.get? (t.restrict members) key =
      if key ∈ t.names then (Members.get? members key).map (t.restrictValue key) else none := by
  rw [restrict, Members.get?_map t.restrictValue, Members.get?_filter fun k => decide (k ∈ t.names)]
  by_cases h : key ∈ t.names <;> simp [h]

theorem distinct_restrict (t : SettingsTree) {members : Members} (h : Members.Distinct members) :
    Members.Distinct (t.restrict members) := by
  rw [Members.Distinct, restrict, Members.keys_map t.restrictValue,
    Members.keys_filter fun k => decide (k ∈ t.names)]
  exact h.filter _

end Restrict

/-! ## Conforming documents -/

/-- A document has a value other than null for plain controls, and conforming objects for
sub-settings, where it has their keys at all. -/
inductive Conforms : SettingsTree → Members → Prop
  /-- The document conforms at this level and below. -/
  | intro {t : SettingsTree} {document : Members}
      (plain : ∀ key control, t.at? key = some (control, none) →
        Members.get? document key ≠ some .null)
      (nested : ∀ key control inner, t.at? key = some (control, some inner) →
        ∀ value, Members.get? document key = some value → ∃ upper, value = .object upper)
      (below : ∀ key control inner, t.at? key = some (control, some inner) →
        ∀ upper, Members.get? document key = some (.object upper) → Conforms inner upper) :
      Conforms t document

theorem Conforms.ne_null {t : SettingsTree} {document : Members} (h : t.Conforms document)
    {key : String} {control : Control} (hat : t.at? key = some (control, none)) :
    Members.get? document key ≠ some .null := by
  obtain ⟨hplain, -, -⟩ := h
  exact hplain key control hat

/-- A conforming document leaves the layers of sub-settings to be seen, and conforms there. -/
theorem Conforms.objectAt {t : SettingsTree} {document : Members} (h : t.Conforms document)
    {key : String} {control : Control} {inner : SettingsTree}
    (hat : t.at? key = some (control, some inner)) :
    (∀ layers, orLayers (Members.get? document key) layers = .object layers) ∧
      inner.Conforms (Members.objectAt document key) := by
  obtain ⟨-, hnested, hbelow⟩ := h
  rcases Members.get?_cases document key with
    ⟨hget, hobj⟩ | ⟨upper, hget, hobj⟩ | ⟨value, hget, hne, -⟩
  · refine ⟨fun layers => by rw [hget]; rfl, hobj ▸ .intro ?_ ?_ ?_⟩
    · exact fun _ _ _ h => nomatch h
    · exact fun _ _ _ _ _ h => nomatch h
    · exact fun _ _ _ _ _ h => nomatch h
  · exact ⟨fun layers => by rw [hget]; rfl, hobj ▸ hbelow key control inner hat upper hget⟩
  · obtain ⟨upper, rfl⟩ := hnested key control inner hat value hget
    exact absurd rfl (hne upper)

/-- Settings made from parameters that a conforming document has been written into have the entries
of controls that combining shows. -/
theorem sameEntries_layered_restrict {t : SettingsTree} (hn : t.DistinctNames)
    (parameters : Members) {document : Members} (hd : Members.Distinct document)
    (hk : t.DistinctKeys document) (hc : t.Conforms document) :
    Members.SameEntries (t.layered (t.write document parameters) [])
      (t.restrict (t.layered parameters document)) := by
  induction t using level_induction generalizing parameters document with
  | level t ih =>
    refine .of_rel (distinct_layered hn _ List.nodup_nil)
      (distinct_restrict t (distinct_layered hn _ hd)) fun key => ?_
    rw [get?_restrict]
    rcases hat : t.at? key with _ | ⟨control, _ | inner⟩
    · rw [get?_layered_of_none hat, if_neg (at?_eq_none_iff.1 hat)]
      exact .none
    · have hwritten := get?_write_of_plain hn hat document parameters
      rw [← name_of_at? hat] at hwritten
      rw [if_pos (mem_names_of_at? hat), get?_layered_of_plain hn hat, get?_layered_of_plain hn hat]
      refine Members.rel_of_eq ?_
      have hkeep : ∀ found : Option Document, found.map (t.restrictValue key) = found := by
        intro found
        cases found with
        | none => rfl
        | some value => exact congrArg some (restrictValue_of_plain hn hat value)
      rw [hkeep]
      cases hdoc : Members.get? document key with
      | none =>
        rw [name_of_at? hat, hdoc, ← name_of_at? hat] at hwritten
        exact control.plainValue_congr hwritten
      | some value =>
        rw [name_of_at? hat, hdoc, ← name_of_at? hat] at hwritten
        have hne : value ≠ .null := fun e => hc.ne_null hat (e ▸ hdoc)
        exact control.plainValue_of_ne_null hwritten hne
    · obtain ⟨hlayers, hinner⟩ := hc.objectAt hat
      obtain ⟨hdistinct, hbelow⟩ := hk.objectAt hn hat
      rw [if_pos (mem_names_of_at? hat), get?_layered_of_nested hn hat,
        get?_layered_of_nested hn hat, hlayers, objectAt_write hn hat hlayers, Option.map_some,
        restrictValue_of_nested hat]
      exact .some (ih key control inner hat (hn.of_at? hat) _ hdistinct hbelow hinner)

end SettingsTree

namespace References

/-- A document that a combiner may be given: no null for a plain control, and for sub-settings an
object that may be given to the combiner behind them. Other keys do not matter. -/
inductive Conforms (references : References) : Combiner → Members → Prop
  /-- The document conforms at this level and below. -/
  | intro {c : Combiner} {document : Members}
      (plain : ∀ control ∈ c.controls, control.isSubSettings = false →
        Members.get? document control.name ≠ some .null)
      (nested : ∀ control ∈ c.controls, control.isSubSettings = true →
        ∀ value, Members.get? document control.name = some value → ∃ upper, value = .object upper)
      (below : ∀ control ∈ c.controls, control.isSubSettings = true →
        ∀ next, references.referenced? control = some next →
        ∀ upper, Members.get? document control.name = some (.object upper) →
          Conforms references next upper) : Conforms references c document

/-- What conforms to a combiner conforms to its tree. -/
theorem Conforms.of_unfold {references : References} {c : Combiner} {document : Members}
    (h : references.Conforms c document) {way : List String} {t : SettingsTree}
    (ht : SettingsTree.unfold references way c.controls = .ok t) : t.Conforms document := by
  induction h generalizing way t with
  | intro plain nested _ ih =>
    refine .intro ?_ ?_ ?_
    · intro key control hat
      obtain ⟨hmem, hkind, -⟩ := SettingsTree.of_unfold_of_at? ht hat
      exact SettingsTree.name_of_at? hat ▸ plain control hmem hkind
    · intro key control inner hat
      obtain ⟨hmem, hkind, -⟩ := SettingsTree.of_unfold_of_at? ht hat
      exact SettingsTree.name_of_at? hat ▸ nested control hmem hkind
    · intro key control inner hat upper hget
      obtain ⟨hmem, hkind, hinner⟩ := SettingsTree.of_unfold_of_at? ht hat
      obtain ⟨next, hd, hi⟩ := hinner inner rfl
      rw [← SettingsTree.name_of_at? hat] at hget
      exact ih control hmem hkind next (of_descend hd).1 upper hget hi

end References

namespace Sample

/-- What the document of a blur is combined to. -/
def combined : Members :=
  [("radius", .ofNat 3),
    ("kernel", .object [("size", .ofNat 9), ("shape", .string "gauss"), ("weight", .ofNat 2)]),
    ("border", .object [("mode", .string "wrap")]), ("title", .string "soft"), ("label", .null)]

/-- What the parameters of a blur make. -/
def made : Members :=
  [("radius", .ofNat 3), ("kernel", .object [("size", .ofNat 5), ("shape", .string "gauss")]),
    ("border", .object [("mode", .string "wrap")])]

/-- A document that conforms to a blur, with unknown keys at two levels. -/
def conforming : Members :=
  [("title", .string "soft"), ("radius", .ofNat 7),
    ("kernel", .object [("weight", .ofNat 2), ("size", .ofNat 9)])]

theorem wellFormed_conforming : conforming.WellFormed := by
  refine Members.wellFormed_of_forall (by decide) ?_
  simp only [conforming, List.forall_mem_cons]
  refine ⟨by simp, by simp [Document.ofNat], ?_, by simp⟩
  rintro below ⟨⟩
  exact Members.wellFormed_of_forall (by decide) (by simp [Document.ofNat])

theorem conforms_conforming : combiners.references.Conforms blur conforming := by
  have hkernel : combiners.references.Conforms kernel
      [("weight", .ofNat 2), ("size", .ofNat 9)] := by
    refine .intro ?_ ?_ ?_ <;>
      simp [kernel, Combiner.controls, Control.isSubSettings, Control.settingsType, Members.get?,
        Document.ofNat]
  refine .intro ?_ ?_ ?_
  · simp [blur, Combiner.controls, Control.isSubSettings, conforming, Members.get?, Document.ofNat]
  · simp [blur, Combiner.controls, Control.isSubSettings, Control.settingsType, conforming,
      Members.get?]
  · simp only [blur, Combiner.controls, List.forall_mem_cons]
    refine ⟨fun h => absurd h (by decide), fun h => absurd h (by decide), ?_, ?_, by simp⟩
    · rintro - next href upper hget
      cases href
      cases hget
      exact hkernel
    · rintro - next - upper ⟨⟩

end Sample

namespace Combiner

/-- What splitting returns has the entries that combining shows, although it comes from parameters
that have been written over. Splitting what combining shows gives it back. -/
theorem split_shows_combine {combiners : Combiners} {c : Combiner}
    (hdefaults : ∃ settings, c.defaults combiners = .ok settings)
    (hnames : combiners.references.DistinctNames c) (parameters : Members) {document : Members}
    (hdocument : document.WellFormed) :
    ∃ combined returned again, c.combine combiners parameters document = .ok combined ∧
      (c.split combiners parameters document).result = .ok returned ∧
      Members.SameEntries returned combined ∧
      (c.split combiners parameters combined).result = .ok again ∧
      Members.SameEntries again combined := by
  obtain ⟨t, ht⟩ := c.defaults_ok_iff.1 hdefaults
  have hn := SettingsTree.distinctNames_of_tree ht hnames
  have hk := t.distinctKeys_of_wellFormed hdocument
  obtain ⟨hd, -⟩ := hdocument
  -- what has been combined is a document like any other
  have hd' := SettingsTree.distinct_layered hn parameters hd
  have hk' := SettingsTree.distinctKeys_layered hn parameters hk
  refine ⟨t.layered parameters document, t.layered (t.write document parameters) document,
    t.layered (t.write (t.layered parameters document) parameters) (t.layered parameters document),
    combine_eq_layered ht hn parameters hd hk, ?_,
    SettingsTree.sameEntries_layered_write hn parameters hd hk, ?_, ?_⟩
  · rw [split_eq_layered ht hn parameters hd hk]
  · rw [split_eq_layered ht hn parameters hd' hk']
  · have hsame := SettingsTree.sameEntries_layered_write hn parameters hd' hk'
    rwa [SettingsTree.layered_layered hn parameters hd hk] at hsame

/-- Splitting a document of a blur whose kernel has a number among the parameters, and a null for a
plain control. -/
theorem split_shows_combine_blur :
    (∃ combined returned again,
      Sample.blur.combine Sample.combiners Sample.parameters Sample.document = .ok combined ∧
      (Sample.blur.split Sample.combiners Sample.parameters Sample.document).result =
        .ok returned ∧
      Members.SameEntries returned combined ∧
      (Sample.blur.split Sample.combiners Sample.parameters combined).result = .ok again ∧
      Members.SameEntries again combined) ∧
    Sample.blur.split Sample.combiners Sample.parameters Sample.document =
      ⟨[("radius", .null), ("border", .object [("mode", .string "wrap")]),
        ("kernel", .object [("size", .ofNat 9)]), ("label", .null)],
      .ok [("radius", .ofNat 3),
        ("kernel", .object [("size", .ofNat 9), ("shape", .string "gauss"), ("weight", .ofNat 2)]),
        ("border", .object [("mode", .string "wrap")]), ("title", .string "soft"),
        ("label", .null)]⟩ :=
  ⟨split_shows_combine Sample.defaults_blur Sample.distinctNames_blur Sample.parameters
    Sample.wellFormed_document, by cbv⟩

/-- A conforming document can be made again from the parameters that splitting writes: they make the
entries of controls that combining shows, at every level. -/
theorem create_carries_document {combiners : Combiners} {c : Combiner}
    (hdefaults : ∃ settings, c.defaults combiners = .ok settings)
    (hnames : combiners.references.DistinctNames c) (parameters : Members) {document : Members}
    (hdocument : document.WellFormed) (hconforms : combiners.references.Conforms c document) :
    ∃ t combined returned made, c.tree combiners = .ok t ∧
      c.combine combiners parameters document = .ok combined ∧
      (c.split combiners parameters document).result = .ok returned ∧
      c.create combiners (c.split combiners parameters document).parameters = .ok made ∧
      Members.SameEntries made (t.restrict combined) := by
  obtain ⟨t, ht⟩ := c.defaults_ok_iff.1 hdefaults
  have hn := SettingsTree.distinctNames_of_tree ht hnames
  have hk := t.distinctKeys_of_wellFormed hdocument
  obtain ⟨hd, -⟩ := hdocument
  have hsame :=
    SettingsTree.sameEntries_layered_restrict hn parameters hd hk (hconforms.of_unfold ht)
  refine ⟨t, t.layered parameters document, t.layered (t.write document parameters) document,
    t.layered (t.write document parameters) [], ht, combine_eq_layered ht hn parameters hd hk, ?_,
    ?_, hsame⟩
  · rw [split_eq_layered ht hn parameters hd hk]
  · rw [split_eq_layered ht hn parameters hd hk]
    exact create_eq_layered ht hn _

/-- What a blur makes from the parameters that a conforming document has been written into. -/
theorem create_carries_document_blur :
    ((∃ settings, Sample.blur.defaults Sample.combiners = .ok settings) ∧
      Sample.conforming.WellFormed ∧
      Sample.combiners.references.Conforms Sample.blur Sample.conforming) ∧
    (∃ t combined returned made, Sample.blur.tree Sample.combiners = .ok t ∧
      Sample.blur.combine Sample.combiners Sample.parameters Sample.conforming = .ok combined ∧
      (Sample.blur.split Sample.combiners Sample.parameters Sample.conforming).result =
        .ok returned ∧
      Sample.blur.create Sample.combiners
        (Sample.blur.split Sample.combiners Sample.parameters Sample.conforming).parameters =
          .ok made ∧
      Members.SameEntries made (t.restrict combined)) ∧
    Sample.blur.create Sample.combiners
      (Sample.blur.split Sample.combiners Sample.parameters Sample.conforming).parameters =
        .ok [("radius", .ofNat 7),
          ("kernel", .object [("size", .ofNat 9), ("shape", .string "gauss")]),
          ("border", .object [("mode", .string "wrap")])] :=
  ⟨⟨Sample.defaults_blur, Sample.wellFormed_conforming, Sample.conforms_conforming⟩,
    create_carries_document Sample.defaults_blur Sample.distinctNames_blur Sample.parameters
      Sample.wellFormed_conforming Sample.conforms_conforming, by cbv⟩

/-- What combining shows is a document of which combining with the same parameters shows the same:
the same keys in the same order with the same values, at every level. So an executor puts out one
text for inputs that write the document and for inputs that write what it is combined to. -/
theorem combine_shows_itself {combiners : Combiners} {c : Combiner}
    (hnames : combiners.references.DistinctNames c) (parameters : Members)
    {document combined : Members} (hdocument : document.WellFormed)
    (h : c.combine combiners parameters document = .ok combined) :
    c.combine combiners parameters combined = .ok combined ∧
      ∀ {ω : Type} (view : ω → Combiner) (loader : Loader ω) (slot : Slot ω) (worker : ω)
        (input : String), slot.fill loader = .ok worker → view worker = c →
        loader.map view = combiners →
        (SettingsOutput.readInput input = .ok document ∨
          SettingsOutput.readInput input = .ok combined) →
        (SettingsExecutor.combine view loader slot parameters input).result =
          .ok (.ofSettings c combined) := by
  obtain ⟨t, ht, -⟩ := exists_of_map_eq_ok (c.combine_eq parameters document ▸ h)
  have hn := SettingsTree.distinctNames_of_tree ht hnames
  have hk := t.distinctKeys_of_wellFormed hdocument
  obtain ⟨hd, -⟩ := hdocument
  have hagain : c.combine combiners parameters combined = .ok combined := by
    rw [combine_eq_layered ht hn parameters hd hk] at h
    cases h
    rw [combine_eq_layered ht hn parameters (SettingsTree.distinct_layered hn parameters hd)
      (SettingsTree.distinctKeys_layered hn parameters hk),
      SettingsTree.layered_layered hn parameters hd hk]
  refine ⟨hagain, ?_⟩
  rintro ω view loader slot worker input hworker rfl rfl hinput
  rw [SettingsExecutor.combine, hworker]
  rcases hinput with hinput | hinput
  · simp only [hinput, bind, Except.bind, h, pure, Except.pure]
  · simp only [hinput, bind, Except.bind, hagain, pure, Except.pure]

/-- A document of a blur with a null, an unknown key and sub-settings is combined twice. A blank
input writes the empty document, which is combined to what the parameters make. -/
theorem combine_shows_itself_blur :
    Sample.blur.combine Sample.combiners Sample.parameters Sample.document = .ok Sample.combined ∧
    Sample.blur.combine Sample.combiners Sample.parameters Sample.combined = .ok Sample.combined ∧
    SettingsOutput.readInput "" = .ok [] ∧
    (SettingsExecutor.combine (fun c => c) Sample.combiners { id := "blur" } Sample.parameters
      "").result = .ok (.ofSettings Sample.blur Sample.made) := by
  have hread : SettingsOutput.readInput "" = .ok [] := by cbv
  have hempty : Members.WellFormed [] := Members.wellFormed_of_forall .nil (by simp)
  have hcombine : Sample.blur.combine Sample.combiners Sample.parameters Sample.document =
      .ok Sample.combined := by cbv
  have hmade : Sample.blur.combine Sample.combiners Sample.parameters [] = .ok Sample.made := by
    cbv
  refine ⟨hcombine, ?_, hread, ?_⟩
  · exact (combine_shows_itself Sample.distinctNames_blur Sample.parameters
      Sample.wellFormed_document hcombine).1
  · exact (combine_shows_itself Sample.distinctNames_blur Sample.parameters hempty hmade).2
      (fun c => c) Sample.combiners { id := "blur" } Sample.blur "" rfl rfl rfl (.inl hread)

end Combiner

end ExecutorHost
