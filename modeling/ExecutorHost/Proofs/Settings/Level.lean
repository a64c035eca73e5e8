import ExecutorHost.Proofs.Settings.Layers

/-!
# Levels of settings trees

At each level of a tree a key names a plain control, a sub-settings control or nothing. What
layering and writing back do to the value of a key depends on that alone, and a statement about all
trees follows level by level.
-/

namespace ExecutorHost

namespace SettingsTree

/-- The first control of a name, with its tree if it holds sub-settings. -/
def at? (name : String) : SettingsTree → Option (Control × Option SettingsTree)
  | .done => none
  | .plain control rest => if control.name = name then some (control, none) else rest.at? name
  | .nested control inner rest =>
    if control.name = name then some (control, some inner) else rest.at? name

/-- The tree of one control alone. -/
def single : Control × Option SettingsTree → SettingsTree
  | (control, none) => .plain control .done
  | (control, some inner) => .nested control inner .done

/-- Induction by levels: from the trees of the sub-settings controls to the tree itself. -/
theorem level_induction {motive : SettingsTree → Prop}
    (level : ∀ t, (∀ key control inner, t.at? key = some (control, some inner) → motive inner) →
      motive t) (t : SettingsTree) : motive t := by
  refine level t ?_
  induction t with
  | done => exact fun _ _ _ h => nomatch h
  | plain control rest ih =>
    intro key c inner h
    rw [at?] at h
    split at h
    · cases h
    · exact ih key c inner h
  | nested control below rest ihb ihr =>
    intro key c inner h
    rw [at?] at h
    split at h
    · cases h
      exact level below ihb
    · exact ihr key c inner h

theorem at?_eq_none_iff {t : SettingsTree} {key : String} : t.at? key = none ↔ key ∉ t.names := by
  induction t with
  | done => simp [at?, names]
  | plain control rest ih =>
    rw [at?, names, List.mem_cons, not_or]
    by_cases h : control.name = key
    · simp [h]
    · rw [if_neg h, ih]
      exact ⟨fun hr => ⟨fun e => h e.symm, hr⟩, fun hr => hr.2⟩
  | nested control inner rest _ ih =>
    rw [at?, names, List.mem_cons, not_or]
    by_cases h : control.name = key
    · simp [h]
    · rw [if_neg h, ih]
      exact ⟨fun hr => ⟨fun e => h e.symm, hr⟩, fun hr => hr.2⟩

theorem mem_names_of_at? {t : SettingsTree} {key : String} {found : Control × Option SettingsTree}
    (h : t.at? key = some found) : key ∈ t.names := by
  by_contra hnot
  rw [at?_eq_none_iff.2 hnot] at h
  cases h

/-- A control that is found further on has another name than one in front. -/
theorem ne_of_at? {rest : SettingsTree} {name key : String} (hname : name ∉ rest.names)
    {found : Control × Option SettingsTree} (h : rest.at? key = some found) : name ≠ key := by
  rintro rfl
  rw [at?_eq_none_iff.2 hname] at h
  cases h

theorem name_of_at? {t : SettingsTree} {key : String} {control : Control}
    {inner : Option SettingsTree} (h : t.at? key = some (control, inner)) :
    control.name = key := by
  induction t with
  | done => cases h
  | plain c rest ih =>
    rw [at?] at h
    split at h
    · rename_i hc
      cases h
      exact hc
    · exact ih h
  | nested c below rest _ ih =>
    rw [at?] at h
    split at h
    · rename_i hc
      cases h
      exact hc
    · exact ih h

theorem DistinctNames.of_at? {t : SettingsTree} (hn : t.DistinctNames) {key : String}
    {control : Control} {inner : SettingsTree} (h : t.at? key = some (control, some inner)) :
    inner.DistinctNames := by
  induction t with
  | done => cases h
  | plain c rest ih =>
    rw [at?] at h
    split at h
    · cases h
    · exact ih hn.2 h
  | nested c below rest _ ih =>
    rw [at?] at h
    split at h
    · cases h
      exact hn.2.1
    · exact ih hn.2.2 h

/-- Keys are distinct at every level exactly if they are in the objects under sub-settings controls
and at every level below. -/
theorem distinctKeys_iff {t : SettingsTree} (hn : t.DistinctNames) {document : Members} :
    t.DistinctKeys document ↔
      ∀ key control inner, t.at? key = some (control, some inner) →
        ∀ upper, Members.get? document key = some (.object upper) →
          Members.Distinct upper ∧ inner.DistinctKeys upper := by
  induction t with
  | done =>
    constructor
    · rintro - key control inner ⟨⟩
    · exact fun _ => trivial
  | plain c rest ih =>
    rw [DistinctKeys, ih hn.2]
    refine ⟨fun h key control inner hat => ?_, fun h key control inner hat => ?_⟩
    · rw [at?] at hat
      split at hat
      · cases hat
      · exact h key control inner hat
    · refine h key control inner ?_
      rw [at?, if_neg (ne_of_at? hn.1 hat), hat]
  | nested c below rest _ ih =>
    rw [DistinctKeys, ih hn.2.2]
    refine ⟨fun h key control inner hat => ?_, fun h => ⟨?_, fun key control inner hat => ?_⟩⟩
    · rw [at?] at hat
      split at hat
      · rename_i hc
        cases hat
        exact hc ▸ h.1
      · exact h.2 key control inner hat
    · exact h c.name c below (if_pos rfl)
    · refine h key control inner ?_
      rw [at?, if_neg (ne_of_at? hn.1 hat), hat]

theorem DistinctKeys.objectAt {t : SettingsTree} (hn : t.DistinctNames) {document : Members}
    (hk : t.DistinctKeys document) {key : String} {control : Control} {inner : SettingsTree}
    (hat : t.at? key = some (control, some inner)) :
    Members.Distinct (Members.objectAt document key) ∧
      inner.DistinctKeys (Members.objectAt document key) := by
  have hempty : inner.DistinctKeys [] :=
    (distinctKeys_iff (hn.of_at? hat)).2 fun _ _ _ _ _ h => nomatch h
  rcases Members.get?_cases document key with
    ⟨-, hobj⟩ | ⟨upper, hget, hobj⟩ | ⟨-, -, -, hobj⟩
  · exact hobj ▸ ⟨List.nodup_nil, hempty⟩
  · exact hobj ▸ (distinctKeys_iff hn).1 hk key control inner hat upper hget
  · exact hobj ▸ ⟨List.nodup_nil, hempty⟩

/-- A control that is found in an unfolded tree is one of those that have been unfolded, and the
tree of its sub-settings is what it refers to, unfolded. -/
theorem of_unfold_of_at? {references : References} {way : List String} {controls : List Control}
    {t : SettingsTree} (h : unfold references way controls = .ok t) {key : String}
    {control : Control} {found : Option SettingsTree} (hat : t.at? key = some (control, found)) :
    control ∈ controls ∧ control.isSubSettings = found.isSome ∧
      ∀ inner, found = some inner → ∃ next, references.descend way control = .ok next ∧
        unfold references (way ++ [next.id]) next.controls = .ok inner := by
  induction controls generalizing t with
  | nil =>
    rw [unfold_nil] at h
    cases h
    cases hat
  | cons c rest ih =>
    rcases unfold_cons_cases h with
      ⟨hplain, tail, ht, rfl⟩ | ⟨hsub, next, below, tail, hd, hi, ht, rfl⟩
    · rw [at?] at hat
      split at hat
      · cases hat
        exact ⟨List.mem_cons_self, by simpa using hplain, fun _ e => nomatch e⟩
      · obtain ⟨hmem, hkind, hinner⟩ := ih ht hat
        exact ⟨List.mem_cons_of_mem _ hmem, hkind, hinner⟩
    · rw [at?] at hat
      split at hat
      · cases hat
        refine ⟨List.mem_cons_self, hsub, ?_⟩
        rintro inner ⟨⟩
        exact ⟨next, hd, hi⟩
      · obtain ⟨hmem, hkind, hinner⟩ := ih ht hat
        exact ⟨List.mem_cons_of_mem _ hmem, hkind, hinner⟩

/-! ## Layers of a key -/

section Layers

variable {t : SettingsTree} {key : String} {control : Control}

/-- Only the keys of controls are shown. -/
theorem get?_shown_of_none (h : t.at? key = none) (parameters document : Members) :
    Members.get? (t.shown parameters document) key = none :=
  Members.get?_eq_none_iff.2 fun hmem =>
    at?_eq_none_iff.1 h (mem_names_of_mem_keys_shown hmem)

/-- What is shown under a name depends on the control of that name alone. -/
theorem get?_shown_of_at? {found : Control × Option SettingsTree} (hn : t.DistinctNames)
    (h : t.at? key = some found) (parameters document : Members) :
    Members.get? (t.shown parameters document) key =
      Members.get? ((single found).shown parameters document) key := by
  induction t with
  | done => cases h
  | plain c rest ih =>
    rw [at?] at h
    rw [shown]
    split at h
    · rename_i hc
      cases h
      rw [single, shown]
      cases c.plainValue parameters with
      | none => exact get?_shown_of_none (hc ▸ at?_eq_none_iff.2 hn.1) parameters document
      | some value => exact (if_pos hc).trans (if_pos hc).symm
    · rename_i hc
      cases c.plainValue parameters with
      | none => exact ih hn.2 h
      | some value => exact (if_neg hc).trans (ih hn.2 h)
  | nested c inner rest _ ih =>
    rw [at?] at h
    split at h
    · rename_i hc
      cases h
      exact (if_pos hc).trans (if_pos hc).symm
    · rename_i hc
      exact (if_neg hc).trans (ih hn.2.2 h)

theorem get?_shown_of_plain (hn : t.DistinctNames) (h : t.at? key = some (control, none))
    (parameters document : Members) :
    Members.get? (t.shown parameters document) key =
      (control.plainValue parameters).map fun value =>
        (Members.get? document key).getD value := by
  rw [get?_shown_of_at? hn h, single, shown]
  cases control.plainValue parameters with
  | none => rfl
  | some value => rw [Members.get?_cons, if_pos (name_of_at? h), name_of_at? h]; rfl

theorem get?_shown_of_nested {inner : SettingsTree} (hn : t.DistinctNames)
    (h : t.at? key = some (control, some inner)) (parameters document : Members) :
    Members.get? (t.shown parameters document) key =
      some (orLayers (Members.get? document key)
        (inner.layered (Members.objectAt parameters key) (Members.objectAt document key))) := by
  rw [get?_shown_of_at? hn h, single, shown, Members.get?_cons, if_pos (name_of_at? h),
    name_of_at? h]
  rfl

/-- A key without a control has the value of the document. -/
theorem get?_layered_of_none (h : t.at? key = none) (parameters document : Members) :
    Members.get? (t.layered parameters document) key = Members.get? document key := by
  rw [layered, Members.get?_followedBy, get?_shown_of_none h]
  rfl

/-- A plain control has the value of the document, or else that of its parameter or default. -/
theorem get?_layered_of_plain (hn : t.DistinctNames) (h : t.at? key = some (control, none))
    (parameters document : Members) :
    Members.get? (t.layered parameters document) key =
      (Members.get? document key).or (control.plainValue parameters) := by
  rw [layered, Members.get?_followedBy, get?_shown_of_plain hn h]
  cases control.plainValue parameters <;> cases Members.get? document key <;> rfl

/-- A sub-settings control has its layers, unless the document has something else there. -/
theorem get?_layered_of_nested {inner : SettingsTree} (hn : t.DistinctNames)
    (h : t.at? key = some (control, some inner)) (parameters document : Members) :
    Members.get? (t.layered parameters document) key =
      some (orLayers (Members.get? document key)
        (inner.layered (Members.objectAt parameters key) (Members.objectAt document key))) := by
  rw [layered, Members.get?_followedBy, get?_shown_of_nested hn h]
  rfl

theorem distinct_layered (hn : t.DistinctNames) (parameters : Members) {document : Members}
    (hd : Members.Distinct document) : Members.Distinct (t.layered parameters document) :=
  Members.distinct_followedBy (distinct_shown hn parameters document) hd

end Layers

/-! ## Values of a key written back -/

section Writing

variable {t : SettingsTree} {key : String} {control : Control}

/-- A control does not touch what is written for another one. -/
theorem get?_write_nested_of_ne {c : Control} (hc : c.name ≠ key) (inner rest : SettingsTree)
    (document parameters : Members) :
    ∃ written, Members.get? written key = Members.get? parameters key ∧
      (nested c inner rest).write document parameters = rest.write document written := by
  have hne : key ≠ c.name := fun e => hc e.symm
  by_cases hobj : ∃ upper, Members.get? document c.name = some (.object upper)
  · obtain ⟨upper, hget⟩ := hobj
    exact ⟨_, by rw [Members.get?_put_of_ne _ hne, get?_openObject_of_ne _ hne],
      write_nested_of_object hget inner rest parameters⟩
  · exact ⟨_, Members.get?_putOptional_of_ne _ hne _,
      write_nested_of_ne (not_exists.1 hobj) inner rest parameters⟩

theorem get?_write_of_none (h : t.at? key = none) (document parameters : Members) :
    Members.get? (t.write document parameters) key = Members.get? parameters key := by
  induction t generalizing parameters with
  | done => rfl
  | plain c rest ih =>
    rw [at?] at h
    split at h
    · cases h
    · rename_i hc
      rw [write, ih h, Members.get?_putOptional_of_ne _ (fun e => hc e.symm)]
  | nested c inner rest _ ih =>
    rw [at?] at h
    split at h
    · cases h
    · rename_i hc
      obtain ⟨written, hget, hwrite⟩ := get?_write_nested_of_ne hc inner rest document parameters
      rw [hwrite, ih h, hget]

/-- What is written under a name depends on the control of that name alone. -/
theorem get?_write_of_at? {found : Control × Option SettingsTree} (hn : t.DistinctNames)
    (h : t.at? key = some found) (document parameters : Members) :
    ∃ written, Members.get? written key = Members.get? parameters key ∧
      Members.get? (t.write document parameters) key =
        Members.get? ((single found).write document written) key := by
  induction t generalizing parameters with
  | done => cases h
  | plain c rest ih =>
    rw [at?] at h
    rw [write]
    split at h
    · rename_i hc
      cases h
      subst hc
      exact ⟨parameters, rfl, get?_write_of_none (at?_eq_none_iff.2 hn.1) ..⟩
    · rename_i hc
      obtain ⟨written, hw, hget⟩ := ih hn.2 h
        (Members.putOptional parameters c.name (Members.get? document c.name))
      rw [Members.get?_putOptional_of_ne _ (fun e => hc e.symm)] at hw
      exact ⟨written, hw, hget⟩
  | nested c inner rest _ ih =>
    rw [at?] at h
    split at h
    · rename_i hc
      cases h
      subst hc
      refine ⟨parameters, rfl, ?_⟩
      have hrest := at?_eq_none_iff.2 hn.1
      by_cases hobj : ∃ upper, Members.get? document c.name = some (.object upper)
      · obtain ⟨upper, hget⟩ := hobj
        rw [single, write_nested_of_object hget, write_nested_of_object hget,
          get?_write_of_none hrest]
        rfl
      · rw [single, write_nested_of_ne (not_exists.1 hobj), write_nested_of_ne (not_exists.1 hobj),
          get?_write_of_none hrest]
        rfl
    · rename_i hc
      obtain ⟨between, hb, hwrite⟩ := get?_write_nested_of_ne hc inner rest document parameters
      obtain ⟨written, hw, hget⟩ := ih hn.2.2 h between
      exact ⟨written, hw.trans hb, hwrite ▸ hget⟩

/-- A plain control takes the value of the document, or else keeps its own. -/
theorem get?_write_of_plain (hn : t.DistinctNames) (h : t.at? key = some (control, none))
    (document parameters : Members) :
    Members.get? (t.write document parameters) key =
      (Members.get? document key).or (Members.get? parameters key) := by
  obtain ⟨written, hw, hget⟩ := get?_write_of_at? hn h document parameters
  rw [hget, ← hw, ← name_of_at? h]
  exact Members.get?_putOptional_self ..

/-- The object that a document has for sub-settings is written into their parameters. -/
theorem get?_write_of_object {inner : SettingsTree} (hn : t.DistinctNames)
    (h : t.at? key = some (control, some inner)) {document upper : Members}
    (hobj : Members.get? document key = some (.object upper)) (parameters : Members) :
    Members.get? (t.write document parameters) key =
      some (.object (inner.write upper (Members.objectAt parameters key))) := by
  obtain ⟨written, hw, hget⟩ := get?_write_of_at? hn h document parameters
  have hname := name_of_at? h
  subst hname
  rw [hget, single, write_nested_of_object hobj, Members.objectAt_congr hw]
  exact Members.get?_put_self ..

/-- Anything else that a document has for sub-settings takes the place of their parameters. -/
theorem get?_write_of_ne {inner : SettingsTree} (hn : t.DistinctNames)
    (h : t.at? key = some (control, some inner)) {document : Members}
    (hne : ∀ upper, Members.get? document key ≠ some (.object upper)) (parameters : Members) :
    Members.get? (t.write document parameters) key =
      (Members.get? document key).or (Members.get? parameters key) := by
  obtain ⟨written, hw, hget⟩ := get?_write_of_at? hn h document parameters
  have hname := name_of_at? h
  subst hname
  rw [hget, single, write_nested_of_ne hne, ← hw]
  exact Members.get?_putOptional_self ..

theorem write_nil (t : SettingsTree) (parameters : Members) :
    t.write [] parameters = parameters := by
  induction t with
  | done => rfl
  | plain c rest ih => exact ih
  | nested c inner rest _ ih => exact ih

/-- What a document has for sub-settings is written into their parameters, if it is nothing or an
object. -/
theorem objectAt_write {inner : SettingsTree} (hn : t.DistinctNames)
    (h : t.at? key = some (control, some inner)) {document : Members}
    (hlayers : ∀ layers, orLayers (Members.get? document key) layers = .object layers)
    (parameters : Members) :
    Members.objectAt (t.write document parameters) key =
      inner.write (Members.objectAt document key) (Members.objectAt parameters key) := by
  rcases Members.get?_cases document key with
    ⟨hget, hobj⟩ | ⟨upper, hget, hobj⟩ | ⟨value, hget, hne, -⟩
  · have hne : ∀ upper, Members.get? document key ≠ some (.object upper) := by simp [hget]
    have hkept := get?_write_of_ne hn h hne parameters
    rw [hget, Option.none_or] at hkept
    rw [hobj, write_nil]
    exact Members.objectAt_congr hkept
  · rw [hobj]
    exact Members.objectAt_of_object (get?_write_of_object hn h hget parameters)
  · have := hlayers []
    rw [hget, orLayers_of_ne hne] at this
    exact absurd this (hne [])

end Writing

end SettingsTree

end ExecutorHost
