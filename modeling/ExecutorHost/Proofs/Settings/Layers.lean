import ExecutorHost.Proofs.Settings.Reference

/-!
# Settings in three layers

Combining builds the settings of the parameters, overlays the document and then works in its
sub-settings. The result is that of one pass over the tree in which every control takes its value
from the document, else from the parameters, else from its default. Main statement: where the
references resolve and names are distinct, combining is `SettingsTree.layered`, in the same order.
-/

namespace ExecutorHost

namespace SettingsTree

/-! ## The three layers -/

/-- What a document has for sub-settings; their layers if that is nothing or an object. -/
def orLayers (found : Option Document) (layers : Members) : Document :=
  match found with
  | none => .object layers
  | some (.object _) => .object layers
  | some value => value

theorem orLayers_of_ne {value : Document} (h : ∀ upper, value ≠ .object upper)
    (layers : Members) : orLayers (some value) layers = value := by
  cases value with
  | object upper => exact absurd rfl (h upper)
  | _ => rfl

/-- A document leaves the layers of sub-settings to be seen, or it has something else there. -/
theorem orLayers_get?_cases (document : Members) (key : String) :
    (∀ layers, orLayers (Members.get? document key) layers = .object layers) ∨
    ∃ value, Members.get? document key = some value ∧ ∀ upper, value ≠ .object upper := by
  rcases Members.get?_cases document key with
    ⟨hget, -⟩ | ⟨upper, hget, -⟩ | ⟨value, hget, hne, -⟩
  · exact .inl fun layers => by rw [hget]; rfl
  · exact .inl fun layers => by rw [hget]; rfl
  · exact .inr ⟨value, hget, hne⟩

/-- The members of the controls that parameters or defaults give a value, in the order of the
controls. The value is that of the document if it has one, but where sub-settings are, and the
document has nothing else there, they are layered in turn. -/
def shown : SettingsTree → Members → Members → Members
  | .done, _, _ => []
  | .plain control rest, parameters, document =>
    match control.plainValue parameters with
    | some value =>
      (control.name, (Members.get? document control.name).getD value) ::
        rest.shown parameters document
    | none => rest.shown parameters document
  | .nested control inner rest, parameters, document =>
    let own := Members.objectAt parameters control.name
    let upper := Members.objectAt document control.name
    (control.name, orLayers (Members.get? document control.name)
      (Members.followedBy (inner.shown own upper) upper)) :: rest.shown parameters document

/-- Parameters and defaults under a document: the members of the controls that parameters or
defaults give a value, and then the other members of the document. -/
def layered (tree : SettingsTree) (parameters document : Members) : Members :=
  Members.followedBy (tree.shown parameters document) document

/-- No control name stands twice at any level. -/
def DistinctNames : SettingsTree → Prop
  | .done => True
  | .plain control rest => control.name ∉ rest.names ∧ rest.DistinctNames
  | .nested control inner rest =>
    control.name ∉ rest.names ∧ inner.DistinctNames ∧ rest.DistinctNames

/-- No key stands twice in the objects that a document has for sub-settings, at any level. -/
def DistinctKeys : SettingsTree → Members → Prop
  | .done, _ => True
  | .plain _ rest, document => rest.DistinctKeys document
  | .nested control inner rest, document =>
    (∀ upper, Members.get? document control.name = some (.object upper) →
      Members.Distinct upper ∧ inner.DistinctKeys upper) ∧ rest.DistinctKeys document

/-- A well-formed document has distinct keys at every level of settings. -/
theorem distinctKeys_of_wellFormed (t : SettingsTree) {document : Members}
    (h : document.WellFormed) : t.DistinctKeys document := by
  induction t generalizing document with
  | done => trivial
  | plain control rest ih => exact ih h
  | nested control inner rest ihi ihr =>
    refine ⟨fun upper hget => ?_, ihr h⟩
    obtain ⟨-, hbelow⟩ := h
    have hupper := hbelow _ _ hget
    obtain ⟨hdistinct, -⟩ := id hupper
    exact ⟨hdistinct, ihi hupper⟩

/-! ## Keys -/

/-- The keys that are shown do not depend on the document. -/
theorem keys_shown (t : SettingsTree) (parameters document other : Members) :
    Members.keys (t.shown parameters document) = Members.keys (t.shown parameters other) := by
  induction t with
  | done => rfl
  | plain control rest ih =>
    rw [shown, shown]
    cases control.plainValue parameters with
    | none => exact ih
    | some value => exact congrArg (control.name :: ·) ih
  | nested control inner rest _ ih => exact congrArg (control.name :: ·) ih

theorem mem_names_of_mem_keys_shown {t : SettingsTree} {parameters document : Members}
    {key : String} (h : key ∈ Members.keys (t.shown parameters document)) : key ∈ t.names := by
  induction t with
  | done => cases h
  | plain control rest ih =>
    rw [shown] at h
    rw [names, List.mem_cons]
    cases hv : control.plainValue parameters with
    | none => rw [hv] at h; exact .inr (ih h)
    | some value => rw [hv] at h; exact (List.mem_cons.1 h).imp id ih
  | nested control inner rest _ ih => exact List.mem_cons.2 ((List.mem_cons.1 h).imp id ih)

theorem distinct_shown {t : SettingsTree} (hn : t.DistinctNames) (parameters document : Members) :
    Members.Distinct (t.shown parameters document) := by
  induction t with
  | done => exact List.nodup_nil
  | plain control rest ih =>
    rw [shown]
    cases control.plainValue parameters with
    | none => exact ih hn.2
    | some value =>
      exact List.nodup_cons.2 ⟨fun h => hn.1 (mem_names_of_mem_keys_shown h), ih hn.2⟩
  | nested control inner rest _ ih =>
    exact List.nodup_cons.2 ⟨fun h => hn.1 (mem_names_of_mem_keys_shown h), ih hn.2.2⟩

/-! ## Making settings -/

/-- A member under a new name keeps the names behind it new. -/
theorem notMem_keys_snoc {rest : SettingsTree} {name : String} (hname : name ∉ rest.names)
    {settings : Members} (hs : ∀ key ∈ rest.names, key ∉ Members.keys settings)
    (value : Document) :
    ∀ key ∈ rest.names, key ∉ Members.keys (settings ++ [(name, value)]) := by
  intro key hkey hmem
  rw [Members.keys_append, List.mem_append] at hmem
  rcases hmem with hmem | hmem
  · exact hs key hkey hmem
  · have heq : key = name := List.mem_singleton.1 hmem
    exact hname (heq ▸ hkey)

/-- With distinct names every control appends what it shows without a document. -/
theorem make_append {t : SettingsTree} (hn : t.DistinctNames) (parameters : Members)
    {settings : Members} (hs : ∀ key ∈ t.names, key ∉ Members.keys settings) :
    t.make parameters settings = settings ++ t.shown parameters [] := by
  induction t generalizing parameters settings with
  | done => exact (List.append_nil settings).symm
  | plain control rest ih =>
    have hrest : ∀ key ∈ rest.names, key ∉ Members.keys settings :=
      fun key hkey => hs key (List.mem_cons_of_mem _ hkey)
    rw [make, shown]
    cases control.plainValue parameters with
    | none => exact ih hn.2 parameters hrest
    | some value =>
      rw [Members.putOptional, Members.put_of_notMem (hs _ List.mem_cons_self),
        ih hn.2 parameters (notMem_keys_snoc hn.1 hrest value), List.append_assoc]
      rfl
  | nested control inner rest ihi ihr =>
    have hrest : ∀ key ∈ rest.names, key ∉ Members.keys settings :=
      fun key hkey => hs key (List.mem_cons_of_mem _ hkey)
    have hempty : ∀ key ∈ inner.names, key ∉ Members.keys [] := by simp
    rw [make, Members.put_of_notMem (hs _ List.mem_cons_self), ihi hn.2.1 _ hempty,
      ihr hn.2.2 parameters (notMem_keys_snoc hn.1 hrest _), List.append_assoc]
    simp [shown, orLayers]

/-- Without settings before, those that are made are what is shown without a document. -/
theorem make_nil {t : SettingsTree} (hn : t.DistinctNames) (parameters : Members) :
    t.make parameters [] = t.shown parameters [] :=
  make_append hn parameters (by simp)

/-! ## Combining -/

/-- The value of a document in place of another one. -/
def overridden (document : Members) (entry : String × Document) : String × Document :=
  (entry.1, (Members.get? document entry.1).getD entry.2)

/-- If working in turns the overridden members of the controls into what is shown, combining is
layering. -/
theorem combine_of_refine {t : SettingsTree} (hn : t.DistinctNames) (parameters : Members)
    {document : Members} (hd : Members.Distinct document)
    (hrefine : ∀ back, t.refine parameters document
      ((t.shown parameters []).map (overridden document) ++ back) =
        t.shown parameters document ++ back) :
    t.combine parameters document = t.layered parameters document := by
  have hkeys := Members.keys_map (fun k v => (Members.get? document k).getD v)
    (t.shown parameters [])
  rw [combine, make_nil hn, Members.overlay_eq (distinct_shown hn parameters []) hd,
    Members.followedBy, hkeys, keys_shown t parameters [] document]
  exact hrefine _

/-- Working in a document turns the overridden members of the controls into what is shown. -/
theorem refine_overridden {t : SettingsTree} (hn : t.DistinctNames) (parameters : Members)
    {document : Members} (hd : t.DistinctKeys document) {front : Members}
    (hf : ∀ key ∈ t.names, key ∉ Members.keys front) (back : Members) :
    t.refine parameters document
      (front ++ ((t.shown parameters []).map (overridden document) ++ back)) =
        front ++ (t.shown parameters document ++ back) := by
  induction t generalizing parameters document front back with
  | done => rfl
  | plain control rest ih =>
    have hrest : ∀ key ∈ rest.names, key ∉ Members.keys front :=
      fun key hkey => hf key (List.mem_cons_of_mem _ hkey)
    rw [refine, shown, shown]
    cases control.plainValue parameters with
    | none => exact ih hn.2 parameters hd hrest back
    | some value =>
      simpa [overridden] using ih hn.2 parameters hd (notMem_keys_snoc hn.1 hrest
        ((Members.get? document control.name).getD value)) back
  | nested control inner rest ihi ihr =>
    have hrest : ∀ key ∈ rest.names, key ∉ Members.keys front :=
      fun key hkey => hf key (List.mem_cons_of_mem _ hkey)
    have htail := fun value =>
      ihr hn.2.2 parameters hd.2 (notMem_keys_snoc hn.1 hrest value) back
    simp only [List.append_assoc, List.singleton_append] at htail
    rw [shown, shown, List.map_cons, List.cons_append, overridden]
    rcases Members.get?_cases document control.name with
      ⟨hget, hat⟩ | ⟨upper, hget, hat⟩ | ⟨value, hget, hne, hat⟩
    · rw [refine_nested_of_ne (by simp [hget]), hget, hat]
      exact htail _
    · have hupper := hd.1 upper hget
      have hempty : ∀ key ∈ inner.names, key ∉ Members.keys [] := by simp
      have hcombine := combine_of_refine hn.2.1 (Members.objectAt parameters control.name) hupper.1
        (ihi hn.2.1 _ hupper.2 hempty)
      rw [refine_nested_of_object hget, Members.put_append_cons (hf _ List.mem_cons_self), hcombine,
        hget, hat]
      exact htail _
    · rw [refine_nested_of_ne (by simpa [hget] using hne), hget, hat, orLayers_of_ne hne]
      exact htail _

/-- Combining is layering. -/
theorem combine_eq_layered {t : SettingsTree} (hn : t.DistinctNames) (parameters : Members)
    {document : Members} (hd : Members.Distinct document) (hk : t.DistinctKeys document) :
    t.combine parameters document = t.layered parameters document := by
  have hempty : ∀ key ∈ t.names, key ∉ Members.keys [] := by simp
  exact combine_of_refine hn parameters hd (refine_overridden hn parameters hk hempty)

/-- Distinct names in all combiners give a tree with distinct names. -/
theorem distinctNames_of_unfold {references : References} {way : List String}
    {controls : List Control} {t : SettingsTree} (h : unfold references way controls = .ok t)
    (hnames : (controls.map (·.name)).Nodup)
    (hbelow : ∀ control ∈ controls, control.isSubSettings = true →
      ∀ next, references.referenced? control = some next → references.DistinctNames next) :
    t.DistinctNames := by
  induction t generalizing way controls with
  | done => trivial
  | plain control tail ih =>
    obtain ⟨rest, rfl, -, ht⟩ := of_unfold_eq_plain h
    obtain ⟨hnot, hrest⟩ := List.nodup_cons.1 hnames
    exact ⟨names_of_unfold ht ▸ hnot, ih ht hrest fun c hc => hbelow c (List.mem_cons_of_mem _ hc)⟩
  | nested control inner tail ihi iht =>
    obtain ⟨rest, next, rfl, hsub, hd, hi, ht⟩ := of_unfold_eq_nested h
    obtain ⟨hnot, hrest⟩ := List.nodup_cons.1 hnames
    have hnext : references.DistinctNames next :=
      hbelow control List.mem_cons_self hsub next (References.of_descend hd).1
    refine ⟨names_of_unfold ht ▸ hnot, ihi hi (hnext next .refl) fun c hc hcsub b hb => ?_,
      iht ht hrest fun c hc => hbelow c (List.mem_cons_of_mem _ hc)⟩
    exact hnext.of_refersTo ⟨c, hc, hcsub, hb⟩

theorem distinctNames_of_tree {references : References} {c : Combiner} {t : SettingsTree}
    (h : c.tree references = .ok t) (hnames : references.DistinctNames c) : t.DistinctNames :=
  distinctNames_of_unfold h (hnames c .refl) fun control hmem hsub _ href =>
    hnames.of_refersTo ⟨control, hmem, hsub, href⟩

end SettingsTree

namespace Combiner

section Layered

variable {references : References} {c : Combiner} {t : SettingsTree}
  (ht : c.tree references = .ok t) (hn : t.DistinctNames) (parameters : Members)
include ht hn

theorem create_eq_layered : c.create references parameters = .ok (t.layered parameters []) := by
  rw [create_eq, ht, SettingsTree.layered, Members.followedBy_nil]
  exact congrArg Except.ok (t.make_nil hn parameters)

variable {document : Members} (hd : Members.Distinct document) (hk : t.DistinctKeys document)
include hd hk

theorem combine_eq_layered :
    c.combine references parameters document = .ok (t.layered parameters document) := by
  rw [combine_eq, ht, ← t.combine_eq_layered hn parameters hd hk]
  rfl

/-- Splitting shows the layers of the parameters that it has written. -/
theorem split_eq_layered :
    c.split references parameters document =
      ⟨t.write document parameters, .ok (t.layered (t.write document parameters) document)⟩ := by
  rw [split_of_tree ht, t.combine_eq_layered hn _ hd hk]

end Layered

end Combiner

/-! ## Combiners of a blur -/

namespace Sample

/-- A blur with a kernel that is found by its id and a border that is found by its name. -/
def blur : Combiner where
  specification :=
    { version := "0.0.1", id := "blur", name := "Blur", role := some ⟨"blur", true⟩,
      controls := [
        { name := "radius", valueType := "int", default := some (.ofNat 3) },
        { name := "label", valueType := "string" },
        { name := "kernel", valueType := "settings", settingsId := some "kernel" },
        { name := "border", valueType := "settings" }] }
  name := "blur"
  named := rfl

/-- The kernel of a blur. -/
def kernel : Combiner where
  specification :=
    { version := "0.0.1", id := "kernel", name := "Kernel", role := some ⟨"kernel", true⟩,
      controls := [
        { name := "size", valueType := "int", default := some (.ofNat 5) },
        { name := "shape", valueType := "string", default := some (.string "gauss") }] }
  name := "kernel"
  named := rfl

/-- The border of a blur. -/
def border : Combiner where
  specification :=
    { version := "0.0.1", id := "border-1", name := "Border", role := some ⟨"border", true⟩,
      controls := [{ name := "mode", valueType := "string", default := some (.string "reflect") }] }
  name := "border"
  named := rfl

/-- The combiners of a blur under their ids. -/
def combiners : Combiners :=
  ((IdMap.empty.insert "blur" blur).insert "kernel" kernel).insert "border-1" border

theorem defaults_blur : ∃ settings, blur.defaults combiners = .ok settings :=
  ⟨[("radius", .ofNat 3), ("kernel", .object [("size", .ofNat 5), ("shape", .string "gauss")]),
    ("border", .object [("mode", .string "reflect")])], by cbv⟩

theorem distinctNames_blur : combiners.references.DistinctNames blur :=
  References.distinctNames_of_registered (by decide) (by decide)

/-- Parameters of a blur, some of the wrong kind. -/
def parameters : Members :=
  [("radius", .null), ("border", .object [("mode", .string "wrap")]), ("kernel", .ofNat 17)]

/-- A document of a blur with a null, an unknown key and sub-settings. -/
def document : Members :=
  [("title", .string "soft"), ("label", .null),
    ("kernel", .object [("weight", .ofNat 2), ("size", .ofNat 9)])]

theorem wellFormed_document : document.WellFormed := by
  refine Members.wellFormed_of_forall (by decide) ?_
  simp only [document, List.forall_mem_cons]
  refine ⟨by simp, by simp, ?_, by simp⟩
  rintro below ⟨⟩
  exact Members.wellFormed_of_forall (by decide) (by simp [Document.ofNat])

end Sample

namespace Combiner

/-- Combining puts a document on top of parameters and these on top of defaults, at every level.
First come the controls that parameters or defaults give a value, in their order, and then the other
keys of the document in its order. -/
theorem combine_three_layers {combiners : Combiners} {c : Combiner}
    (hdefaults : ∃ settings, c.defaults combiners = .ok settings)
    (hnames : combiners.references.DistinctNames c) (parameters : Members) {document : Members}
    (hdocument : document.WellFormed) :
    ∃ t, c.tree combiners = .ok t ∧
      c.combine combiners parameters document = .ok (t.layered parameters document) := by
  obtain ⟨t, ht⟩ := c.defaults_ok_iff.1 hdefaults
  have hn := SettingsTree.distinctNames_of_tree ht hnames
  have hk := t.distinctKeys_of_wellFormed hdocument
  obtain ⟨hdistinct, -⟩ := hdocument
  exact ⟨t, ht, combine_eq_layered ht hn parameters hdistinct hk⟩

/-- The three layers of a blur. -/
theorem combine_three_layers_blur :
    (∃ t, Sample.blur.tree Sample.combiners = .ok t ∧
      Sample.blur.combine Sample.combiners Sample.parameters Sample.document =
        .ok (t.layered Sample.parameters Sample.document)) ∧
    Sample.blur.combine Sample.combiners Sample.parameters Sample.document =
      .ok [("radius", .ofNat 3),
        ("kernel", .object [("size", .ofNat 9), ("shape", .string "gauss"), ("weight", .ofNat 2)]),
        ("border", .object [("mode", .string "wrap")]), ("title", .string "soft"),
        ("label", .null)] :=
  ⟨combine_three_layers Sample.defaults_blur Sample.distinctNames_blur Sample.parameters
    Sample.wellFormed_document, by cbv⟩

end Combiner

end ExecutorHost
