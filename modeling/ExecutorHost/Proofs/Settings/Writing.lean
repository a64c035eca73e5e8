import ExecutorHost.Proofs.Settings.RoundTrip

/-!
# Parameters that a document has been written into

Splitting writes into the parameters what the document has for the controls, and nothing else. What
it leaves behind is described by a law of its own, `References.Written`, that speaks of the entries
of one level and of the objects below. The law decides the parameters down to the order of their
keys. Writing the same document once more changes nothing. Main statement:
`Combiner.split_writes_values`.
-/

namespace ExecutorHost

/-! ## Writing on the tree -/

namespace SettingsTree

/-- What is written for a control: the value of the document, and where that is an object of
sub-settings, their own members with the object written into them. -/
def entry : Option SettingsTree → Document → Members → Document
  | none, value, _ => value
  | some inner, value, own => value.onObject fun upper => inner.write upper own

theorem entry_of_ne (found : Option SettingsTree) {value : Document}
    (hne : ∀ upper, value ≠ .object upper) (own : Members) : entry found value own = value := by
  cases found with
  | none => rfl
  | some inner =>
    cases value with
    | object upper => exact absurd rfl (hne upper)
    | _ => rfl

/-- A sub-settings control is written like a plain one, with another value. -/
theorem write_nested (control : Control) (inner rest : SettingsTree)
    (document parameters : Members) :
    (nested control inner rest).write document parameters =
      rest.write document (Members.putOptional parameters control.name
        ((Members.get? document control.name).map fun value =>
          entry (some inner) value (Members.objectAt parameters control.name))) := by
  rcases Members.get?_cases document control.name with
    ⟨hget, -⟩ | ⟨upper, hget, -⟩ | ⟨value, hget, hne, -⟩
  · rw [write_nested_of_ne (by simp [hget]), hget]
    rfl
  · rw [write_nested_of_object hget, put_openObject, hget]
    rfl
  · rw [write_nested_of_ne (by simpa [hget] using hne), hget, Option.map_some, entry_of_ne _ hne]

section Keys

variable {rest : SettingsTree} {name : String} {document parameters : Members}

theorem keys_write_step (hname : name ∉ rest.names) {value : Option Document}
    (hvalue : value.isSome = true ↔ name ∈ Members.keys document)
    (hrest : Members.keys (rest.write document (Members.putOptional parameters name value)) =
      Members.keys (Members.putOptional parameters name value) ++ rest.names.filter fun key =>
        key ∈ Members.keys document ∧
          key ∉ Members.keys (Members.putOptional parameters name value)) :
    Members.keys (rest.write document (Members.putOptional parameters name value)) =
      Members.keys parameters ++ (name :: rest.names).filter fun key =>
        key ∈ Members.keys document ∧ key ∉ Members.keys parameters := by
  -- the keys behind are not the one that has been put
  have hsame : (rest.names.filter fun key => key ∈ Members.keys document ∧
      key ∉ Members.keys (Members.putOptional parameters name value)) =
        rest.names.filter fun key =>
          key ∈ Members.keys document ∧ key ∉ Members.keys parameters := by
    refine List.filter_congr fun key hkey => ?_
    have hne : key ≠ name := fun heq => hname (heq ▸ hkey)
    rw [Members.keys_putOptional]
    split <;> simp [hne]
  rw [hrest, hsame, Members.keys_putOptional, List.filter_cons, List.append_assoc]
  by_cases hnew : name ∈ Members.keys document ∧ name ∉ Members.keys parameters
  · rw [if_pos ⟨hvalue.2 hnew.1, hnew.2⟩, if_pos (by simpa using hnew)]
    rfl
  · rw [if_neg fun h => hnew ⟨hvalue.1 h.1, h.2⟩, if_neg (by simpa using hnew)]
    rfl

end Keys

/-- The keys of parameters keep their places, and the keys of controls that the document has and the
parameters lack follow in the order of the controls. -/
theorem keys_write {t : SettingsTree} (hn : t.DistinctNames) (document parameters : Members) :
    Members.keys (t.write document parameters) =
      Members.keys parameters ++ t.names.filter fun key =>
        key ∈ Members.keys document ∧ key ∉ Members.keys parameters := by
  induction t generalizing parameters with
  | done => simp [write, names]
  | plain control rest ih =>
    refine keys_write_step hn.1 ?_ (ih hn.2 _)
    rw [Members.mem_keys_iff, Option.isSome_iff_exists]
  | nested control inner rest _ ih =>
    rw [write_nested]
    refine keys_write_step hn.1 ?_ (ih hn.2.2 _)
    rw [Option.isSome_map, Members.mem_keys_iff, Option.isSome_iff_exists]

section Entries

variable {t : SettingsTree} {key : String} {control : Control}

theorem get?_write_of_some {found : Option SettingsTree} (hn : t.DistinctNames)
    (h : t.at? key = some (control, found)) {document : Members} {value : Document}
    (hget : Members.get? document key = some value) (parameters : Members) :
    Members.get? (t.write document parameters) key =
      some (entry found value (Members.objectAt parameters key)) := by
  cases found with
  | none => rw [get?_write_of_plain hn h, hget, Option.some_or, entry]
  | some inner =>
    by_cases hobject : ∃ upper, value = .object upper
    · obtain ⟨upper, rfl⟩ := hobject
      exact get?_write_of_object hn h hget parameters
    · have hne : ∀ upper, value ≠ .object upper := not_exists.1 hobject
      rw [get?_write_of_ne hn h (by simpa [hget] using hne), hget, Option.some_or,
        entry_of_ne _ hne]

theorem get?_write_of_absent (hn : t.DistinctNames) {document : Members}
    (h : Members.get? document key = none) (parameters : Members) :
    Members.get? (t.write document parameters) key = Members.get? parameters key := by
  rcases hat : t.at? key with _ | ⟨control, _ | inner⟩
  · exact get?_write_of_none hat document parameters
  · rw [get?_write_of_plain hn hat, h, Option.none_or]
  · rw [get?_write_of_ne hn hat (by simp [h]), h, Option.none_or]

end Entries

/-- Parameters that have what would be written are left as they are. -/
theorem write_eq_self {t : SettingsTree} (hn : t.DistinctNames) {document parameters : Members}
    (h : ∀ key control found, t.at? key = some (control, found) →
      ∀ value, Members.get? document key = some value →
        Members.get? parameters key =
          some (entry found value (Members.objectAt parameters key))) :
    t.write document parameters = parameters := by
  induction t with
  | done => rfl
  | plain control rest ih =>
    have hput : Members.putOptional parameters control.name
        (Members.get? document control.name) = parameters := by
      cases hget : Members.get? document control.name with
      | none => rfl
      | some value => exact Members.put_of_get? (h control.name control none (if_pos rfl) value hget)
    rw [write, hput]
    -- a control further on is still found by its name
    refine ih hn.2 fun key c found hat => h key c found ?_
    rw [at?, if_neg (ne_of_at? hn.1 hat), hat]
  | nested control inner rest _ ih =>
    have hput : Members.putOptional parameters control.name
        ((Members.get? document control.name).map fun value =>
          entry (some inner) value (Members.objectAt parameters control.name)) = parameters := by
      cases hget : Members.get? document control.name with
      | none => rfl
      | some value =>
        exact Members.put_of_get? (h control.name control (some inner) (if_pos rfl) value hget)
    rw [write_nested, hput]
    refine ih hn.2.2 fun key c found hat => h key c found ?_
    rw [at?, if_neg (ne_of_at? hn.1 hat), hat]

/-- Writing a document once more changes nothing. -/
theorem write_write {t : SettingsTree} (hn : t.DistinctNames) (document parameters : Members) :
    t.write document (t.write document parameters) = t.write document parameters := by
  induction t using level_induction generalizing document parameters with
  | level t ih =>
    refine write_eq_self hn fun key control found hat value hget => ?_
    -- only the objects below could be written twice
    have hwritten := get?_write_of_some hn hat hget parameters
    rw [hwritten]
    cases found with
    | none => rfl
    | some inner =>
      cases value with
      | object upper =>
        have hbelow := ih key control inner hat (hn.of_at? hat) upper
          (Members.objectAt parameters key)
        rw [Members.objectAt_of_object hwritten]
        exact congrArg (fun below => some (Document.object below)) hbelow.symm
      | _ => rfl

theorem at?_of_mem {references : References} {way : List String} {controls : List Control}
    {t : SettingsTree} (h : unfold references way controls = .ok t)
    (hnames : (controls.map (·.name)).Nodup) {control : Control} (hmem : control ∈ controls) :
    ∃ found, t.at? control.name = some (control, found) := by
  cases hat : t.at? control.name with
  | none =>
    have hnot := at?_eq_none_iff.1 hat
    rw [names_of_unfold h] at hnot
    exact absurd (List.mem_map_of_mem hmem) hnot
  | some other =>
    obtain ⟨other, found⟩ := other
    obtain ⟨hother, -⟩ := of_unfold_of_at? h hat
    obtain rfl := List.inj_on_of_nodup_map hnames hother hmem (name_of_at? hat)
    exact ⟨found, rfl⟩

end SettingsTree

/-! ## The law of written parameters -/

namespace References

/-- The parameters after a document has been written into those before. No key has moved or gone,
and those of new entries follow in the order of the controls. A control that the document has takes
its value; where that is an object of sub-settings, the same holds between the objects under the
control. Every other key keeps its value. -/
inductive Written (references : References) : Combiner → Members → Members → Members → Prop
  /-- The law at this level and below. -/
  | intro {c : Combiner} {document before after : Members}
      (keys : Members.keys after = Members.keys before ++ (c.controls.map (·.name)).filter
        fun key => key ∈ Members.keys document ∧ key ∉ Members.keys before)
      (kept : ∀ key, (key ∈ c.controls.map (·.name) → Members.get? document key = none) →
        Members.get? after key = Members.get? before key)
      (taken : ∀ control ∈ c.controls, ∀ value, Members.get? document control.name = some value →
        (control.isSubSettings = true → ∀ upper, value ≠ .object upper) →
        Members.get? after control.name = some value)
      (opened : ∀ control ∈ c.controls, control.isSubSettings = true →
        ∀ upper, Members.get? document control.name = some (.object upper) →
        (∃ next, references.referenced? control = some next) ∧
          ∃ own, Members.get? after control.name = some (.object own))
      (below : ∀ control ∈ c.controls, control.isSubSettings = true →
        ∀ upper, Members.get? document control.name = some (.object upper) →
        ∀ next, references.referenced? control = some next →
          Written references next upper (Members.objectAt before control.name)
            (Members.objectAt after control.name)) :
      Written references c document before after

variable {references : References}

/-- What is written on the tree of a combiner obeys the law. -/
theorem written_of_unfold {t : SettingsTree} {c : Combiner} {way : List String}
    (ht : SettingsTree.unfold references way c.controls = .ok t)
    (hnames : references.DistinctNames c) (document parameters : Members) :
    references.Written c document parameters (t.write document parameters) := by
  induction t using SettingsTree.level_induction generalizing c way document parameters with
  | level t ih =>
    have hnodup := hnames c .refl
    have hn : t.DistinctNames := SettingsTree.distinctNames_of_unfold ht hnodup
      fun control hmem hsub _ href => hnames.of_refersTo ⟨control, hmem, hsub, href⟩
    constructor
    case keys => rw [SettingsTree.keys_write hn, SettingsTree.names_of_unfold ht]
    case kept =>
      intro key hkey
      by_cases hmem : key ∈ c.controls.map (·.name)
      · exact SettingsTree.get?_write_of_absent hn (hkey hmem) parameters
      · rw [← SettingsTree.names_of_unfold ht, ← SettingsTree.at?_eq_none_iff] at hmem
        exact SettingsTree.get?_write_of_none hmem document parameters
    case taken =>
      intro control hmem value hget hplain
      obtain ⟨found, hat⟩ := SettingsTree.at?_of_mem ht hnodup hmem
      obtain ⟨-, hkind, -⟩ := SettingsTree.of_unfold_of_at? ht hat
      rw [SettingsTree.get?_write_of_some hn hat hget]
      cases found with
      | none => rfl
      | some inner => rw [SettingsTree.entry_of_ne _ (hplain hkind)]
    case opened =>
      intro control hmem hsub upper hget
      obtain ⟨found, hat⟩ := SettingsTree.at?_of_mem ht hnodup hmem
      obtain ⟨-, hkind, hinner⟩ := SettingsTree.of_unfold_of_at? ht hat
      obtain ⟨inner, rfl⟩ := Option.isSome_iff_exists.1 (hkind.symm.trans hsub)
      obtain ⟨next, hd, -⟩ := hinner inner rfl
      exact ⟨⟨next, (of_descend hd).1⟩, _, SettingsTree.get?_write_of_some hn hat hget parameters⟩
    case below =>
      intro control hmem hsub upper hget next href
      obtain ⟨found, hat⟩ := SettingsTree.at?_of_mem ht hnodup hmem
      obtain ⟨-, hkind, hinner⟩ := SettingsTree.of_unfold_of_at? ht hat
      obtain ⟨inner, rfl⟩ := Option.isSome_iff_exists.1 (hkind.symm.trans hsub)
      obtain ⟨next', hd, hi⟩ := hinner inner rfl
      cases href.symm.trans (of_descend hd).1
      have hwritten := SettingsTree.get?_write_of_some hn hat hget parameters
      rw [Members.objectAt_of_object hwritten]
      exact ih control.name control inner hat hi (hnames.of_refersTo ⟨control, hmem, hsub, href⟩)
        upper _

/-- The law decides the parameters, in their order. -/
theorem Written.unique {c : Combiner} {document before after other : Members}
    (h : references.Written c document before after) (hnames : references.DistinctNames c)
    (hbefore : before.WellFormed) (hother : references.Written c document before other) :
    after = other := by
  induction h generalizing other with
  | @intro c document before after keys kept taken opened below ih =>
    obtain ⟨keys', kept', taken', opened', below'⟩ := hother
    have hdistinct : Members.Distinct after := by
      obtain ⟨hd, -⟩ := hbefore
      rw [Members.Distinct, keys]
      refine List.nodup_append.2 ⟨hd, (hnames c .refl).filter _, fun a ha b hb heq => ?_⟩
      have hnew := (List.mem_filter.1 hb).2
      simp only [decide_eq_true_eq] at hnew
      exact hnew.2 (heq ▸ ha)
    refine Members.eq_of_keys_eq hdistinct (keys.trans keys'.symm) fun key => ?_
    -- exactly one clause of the law speaks of each key
    by_cases hkey : key ∈ c.controls.map (·.name) → Members.get? document key = none
    · rw [kept key hkey, kept' key hkey]
    · obtain ⟨hmem, hsome⟩ := Classical.not_imp.1 hkey
      obtain ⟨control, hcontrol, rfl⟩ := List.mem_map.1 hmem
      obtain ⟨value, hget⟩ := Option.ne_none_iff_exists'.1 hsome
      by_cases hobject : control.isSubSettings = true → ∀ upper, value ≠ .object upper
      · rw [taken control hcontrol value hget hobject, taken' control hcontrol value hget hobject]
      · obtain ⟨hsub, hupper⟩ := Classical.not_imp.1 hobject
        obtain ⟨upper, hvalue⟩ := not_forall_not.1 hupper
        subst hvalue
        obtain ⟨⟨next, href⟩, own, hown⟩ := opened control hcontrol hsub upper hget
        obtain ⟨-, own', hown'⟩ := opened' control hcontrol hsub upper hget
        have hsame := ih control hcontrol hsub upper hget next href
          (hnames.of_refersTo ⟨control, hcontrol, hsub, href⟩) (hbefore.objectAt control.name)
          (below' control hcontrol hsub upper hget next href)
        rw [Members.objectAt_of_object hown, Members.objectAt_of_object hown'] at hsame
        rw [hown, hown', hsame]

end References

/-! ## Splitting -/

namespace Combiner

theorem exists_tree_of_split {references : References} {c : Combiner}
    {parameters document returned : Members}
    (h : (c.split references parameters document).result = .ok returned) :
    ∃ t, c.tree references = .ok t := by
  rw [split] at h
  split at h
  · cases h
  · rw [combine_eq] at h
    obtain ⟨t, ht, -⟩ := exists_of_map_eq_ok h
    exact ⟨t, ht⟩

/-- Splitting writes into the parameters what the document has for the controls, at every level, and
nothing else: the law of written parameters holds and leaves no choice. Splitting the same document
once more is the same run, so it leaves the parameters exactly as they are. -/
theorem split_writes_values {combiners : Combiners} {c : Combiner}
    (hnames : combiners.references.DistinctNames c) {parameters document returned : Members}
    (h : (c.split combiners parameters document).result = .ok returned) :
    combiners.references.Written c document parameters
        (c.split combiners parameters document).parameters ∧
      (parameters.WellFormed →
        ∀ written, combiners.references.Written c document parameters written →
          written = (c.split combiners parameters document).parameters) ∧
      c.split combiners (c.split combiners parameters document).parameters document =
        c.split combiners parameters document := by
  obtain ⟨t, ht⟩ := exists_tree_of_split h
  have hn := SettingsTree.distinctNames_of_tree ht hnames
  have hwritten := References.written_of_unfold ht hnames document parameters
  rw [split_of_tree ht, split_of_tree ht, SettingsTree.write_write hn]
  exact ⟨hwritten, fun hparameters written hlaw => hlaw.unique hnames hparameters hwritten, rfl⟩

/-- A blur with a number where the document has sub-settings: the number gives way to an object in
its place, and the new key of a null goes to the end. -/
theorem split_writes_values_blur :
    (Sample.blur.split Sample.combiners Sample.parameters Sample.document).result =
      .ok Sample.combined ∧
    Sample.combiners.references.Written Sample.blur Sample.document Sample.parameters
      [("radius", .null), ("border", .object [("mode", .string "wrap")]),
        ("kernel", .object [("size", .ofNat 9)]), ("label", .null)] ∧
    Sample.blur.split Sample.combiners
      [("radius", .null), ("border", .object [("mode", .string "wrap")]),
        ("kernel", .object [("size", .ofNat 9)]), ("label", .null)] Sample.document =
      ⟨[("radius", .null), ("border", .object [("mode", .string "wrap")]),
        ("kernel", .object [("size", .ofNat 9)]), ("label", .null)], .ok Sample.combined⟩ := by
  have hsplit : Sample.blur.split Sample.combiners Sample.parameters Sample.document =
      ⟨[("radius", .null), ("border", .object [("mode", .string "wrap")]),
        ("kernel", .object [("size", .ofNat 9)]), ("label", .null)], .ok Sample.combined⟩ := by cbv
  have hok : (Sample.blur.split Sample.combiners Sample.parameters Sample.document).result =
      .ok Sample.combined := by rw [hsplit]
  have hwritten := split_writes_values Sample.distinctNames_blur hok
  rw [hsplit] at hwritten
  exact ⟨hok, hwritten.1, hwritten.2.2⟩

end Combiner

end ExecutorHost
