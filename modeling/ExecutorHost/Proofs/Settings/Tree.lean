import ExecutorHost.Proofs.Document.Members
import ExecutorHost.Settings.Split

/-!
# Settings trees

The references of a combiner unfold into a tree that says for every control what it is: a plain
control, or a sub-settings control with the tree of the settings that it refers to. Unfolding needs
no parameters and no document. Making, combining and writing back fail exactly where unfolding does,
or only there, and otherwise they are recursions on the tree alone.
-/

namespace ExecutorHost

namespace Control

/-- The value of a plain control depends on the parameter of its name only. -/
theorem plainValue_congr (control : Control) {a b : Members}
    (h : Members.get? a control.name = Members.get? b control.name) :
    control.plainValue a = control.plainValue b := by
  rw [plainValue, plainValue, h]

theorem plainValue_of_ne_null {control : Control} {parameters : Members} {value : Document}
    (h : Members.get? parameters control.name = some value) (hne : value ≠ .null) :
    control.plainValue parameters = some value := by
  rw [plainValue, h]
  cases value with
  | null => exact absurd rfl hne
  | _ => rfl

end Control

/-- The controls of settings, in order, with the references of sub-settings controls resolved. -/
inductive SettingsTree
  /-- No more controls. -/
  | done
  /-- A plain control and the controls behind it. -/
  | plain (control : Control) (rest : SettingsTree)
  /-- A sub-settings control, the settings that it refers to, and the controls behind it. -/
  | nested (control : Control) (inner rest : SettingsTree)

namespace SettingsTree

/-- The names of the controls, in order. -/
def names : SettingsTree → List String
  | .done => []
  | .plain control rest => control.name :: rest.names
  | .nested control _ rest => control.name :: rest.names

/-- The tree of a list of controls, for settings that are reached by a way through the given ids. -/
def unfold (references : References) (way : List String) :
    List Control → Except SettingsError SettingsTree
  | [] => .ok .done
  | control :: rest =>
    if control.isSubSettings then
      match _h : references.descend way control with
      | .error e => .error e
      | .ok sub => do
        let inner ← unfold references (way ++ [sub.id]) sub.controls
        return .nested control inner (← unfold references way rest)
    else do
      return .plain control (← unfold references way rest)
termination_by controls => (references.ahead way, controls.length)
decreasing_by
  · exact Prod.Lex.left _ _ (References.ahead_lt_of_descend (by assumption))
  · exact Prod.Lex.right _ (by simp)
  · exact Prod.Lex.right _ (by simp)

/-- The settings that the controls make from parameters, put into those made so far. -/
def make : SettingsTree → Members → Members → Members
  | .done, _, settings => settings
  | .plain control rest, parameters, settings =>
    rest.make parameters
      (Members.putOptional settings control.name (control.plainValue parameters))
  | .nested control inner rest, parameters, settings =>
    let own := Members.objectAt parameters control.name
    rest.make parameters (Members.put settings control.name (.object (inner.make own [])))

/-- Settings with the sub-settings of a document worked in. -/
def refine : SettingsTree → Members → Members → Members → Members
  | .done, _, _, settings => settings
  | .plain _ rest, parameters, document, settings => rest.refine parameters document settings
  | .nested control inner rest, parameters, document, settings =>
    match Members.get? document control.name with
    | some (.object upper) =>
      let own := Members.objectAt parameters control.name
      let merged := inner.refine own upper (Members.overlay (inner.make own []) upper)
      rest.refine parameters document (Members.put settings control.name (.object merged))
    | _ => rest.refine parameters document settings

/-- A document put on top of the settings made from parameters, at every level. -/
def combine (tree : SettingsTree) (parameters document : Members) : Members :=
  tree.refine parameters document (Members.overlay (tree.make parameters []) document)

/-- Where the document has an object for sub-settings, it is combined with their parameters. -/
theorem refine_nested_of_object {document upper : Members} {control : Control}
    (h : Members.get? document control.name = some (.object upper)) (inner rest : SettingsTree)
    (parameters settings : Members) :
    (nested control inner rest).refine parameters document settings =
      rest.refine parameters document (Members.put settings control.name
        (.object (inner.combine (Members.objectAt parameters control.name) upper))) := by
  rw [refine, h]
  rfl

/-- Where the document has no object for sub-settings, they are left as they are. -/
theorem refine_nested_of_ne {document : Members} {control : Control}
    (h : ∀ upper, Members.get? document control.name ≠ some (.object upper))
    (inner rest : SettingsTree) (parameters settings : Members) :
    (nested control inner rest).refine parameters document settings =
      rest.refine parameters document settings := by
  rw [refine]
  split
  · exact absurd (by assumption) (h _)
  · rfl

/-- The values of a document written back into parameters. -/
def write : SettingsTree → Members → Members → Members
  | .done, _, parameters => parameters
  | .plain control rest, document, parameters =>
    rest.write document
      (Members.putOptional parameters control.name (Members.get? document control.name))
  | .nested control inner rest, document, parameters =>
    match Members.get? document control.name with
    | some (.object upper) =>
      let opened := SplitResult.openObject parameters control.name
      let own := Members.objectAt opened control.name
      rest.write document (Members.put opened control.name (.object (inner.write upper own)))
    | value => rest.write document (Members.putOptional parameters control.name value)

/-- Opening an object keeps the members that are there. -/
theorem objectAt_openObject (parameters : Members) (key : String) :
    Members.objectAt (SplitResult.openObject parameters key) key =
      Members.objectAt parameters key := by
  rw [SplitResult.openObject]
  rcases Members.get?_cases parameters key with
    ⟨hget, hat⟩ | ⟨inner, hget, -⟩ | ⟨value, hget, hne, hat⟩
  · rw [hget, hat]
    exact Members.objectAt_of_object (Members.get?_put_self ..)
  · rw [hget]
  · rw [hget, hat]
    split
    · exact absurd (Option.some.inj (by assumption)) (hne _)
    · exact Members.objectAt_of_object (Members.get?_put_self ..)

/-- Opening an object does not show in what is put in its place. -/
theorem put_openObject (parameters : Members) (key : String) (value : Document) :
    Members.put (SplitResult.openObject parameters key) key value =
      Members.put parameters key value := by
  rw [SplitResult.openObject]
  split
  · rfl
  · exact Members.put_put parameters key _ _

theorem get?_openObject_of_ne (parameters : Members) {key other : String} (h : other ≠ key) :
    Members.get? (SplitResult.openObject parameters key) other =
      Members.get? parameters other := by
  rw [SplitResult.openObject]
  split
  · rfl
  · exact Members.get?_put_of_ne parameters h _

/-- Where the document has an object for sub-settings, it is written into their parameters. -/
theorem write_nested_of_object {document upper : Members} {control : Control}
    (h : Members.get? document control.name = some (.object upper)) (inner rest : SettingsTree)
    (parameters : Members) :
    (nested control inner rest).write document parameters =
      rest.write document (Members.put (SplitResult.openObject parameters control.name)
        control.name (.object (inner.write upper (Members.objectAt parameters control.name)))) := by
  rw [write, h, ← objectAt_openObject]

/-- Anything else that the document has for sub-settings is put as it is. -/
theorem write_nested_of_ne {document : Members} {control : Control}
    (h : ∀ upper, Members.get? document control.name ≠ some (.object upper))
    (inner rest : SettingsTree) (parameters : Members) :
    (nested control inner rest).write document parameters =
      rest.write document (Members.putOptional parameters control.name
        (Members.get? document control.name)) := by
  rw [write]
  split
  · exact absurd (by assumption) (h _)
  · rfl

end SettingsTree

namespace SettingsTree

variable {references : References} {way : List String}

theorem unfold_nil : unfold references way [] = .ok .done := by
  rw [unfold]

theorem unfold_plain {control : Control} (hsub : ¬control.isSubSettings = true)
    (rest : List Control) :
    unfold references way (control :: rest) =
      (unfold references way rest).map (SettingsTree.plain control) := by
  rw [unfold, if_neg hsub]
  cases unfold references way rest <;> rfl

theorem unfold_error {control : Control} {e : SettingsError} (hsub : control.isSubSettings = true)
    (hd : references.descend way control = .error e) (rest : List Control) :
    unfold references way (control :: rest) = .error e := by
  rw [unfold, if_pos hsub]
  split
  · rename_i e' he
    cases he.symm.trans hd
    rfl
  · rename_i sub he
    cases he.symm.trans hd

/-- A reference that can be followed unfolds before the controls behind it. -/
theorem unfold_nested {control : Control} {sub : Combiner} (hsub : control.isSubSettings = true)
    (hd : references.descend way control = .ok sub) (rest : List Control) :
    unfold references way (control :: rest) =
      (unfold references (way ++ [sub.id]) sub.controls).bind fun inner =>
        (unfold references way rest).map (SettingsTree.nested control inner) := by
  rw [unfold, if_pos hsub]
  split
  · rename_i e he
    cases he.symm.trans hd
  · rename_i sub' he
    cases he.symm.trans hd
    cases unfold references (way ++ [sub.id]) sub.controls with
    | error e => rfl
    | ok inner => cases unfold references way rest <;> rfl

/-- The ways in which a list of controls unfolds. -/
theorem unfold_cons_cases {control : Control} {rest : List Control} {t : SettingsTree}
    (h : unfold references way (control :: rest) = .ok t) :
    (¬control.isSubSettings = true ∧
      ∃ tail, unfold references way rest = .ok tail ∧ t = .plain control tail) ∨
    (control.isSubSettings = true ∧ ∃ sub inner tail, references.descend way control = .ok sub ∧
      unfold references (way ++ [sub.id]) sub.controls = .ok inner ∧
      unfold references way rest = .ok tail ∧ t = .nested control inner tail) := by
  by_cases hsub : control.isSubSettings = true
  · right
    cases hd : references.descend way control with
    | error e => rw [unfold_error hsub hd] at h; cases h
    | ok sub =>
      rw [unfold_nested hsub hd] at h
      cases hi : unfold references (way ++ [sub.id]) sub.controls with
      | error e => rw [hi] at h; cases h
      | ok inner =>
        cases ht : unfold references way rest with
        | error e => rw [hi, ht] at h; cases h
        | ok tail =>
          rw [hi, ht] at h
          exact ⟨hsub, sub, inner, tail, rfl, hi, rfl, (Except.ok.inj h).symm⟩
  · left
    rw [unfold_plain hsub] at h
    cases ht : unfold references way rest with
    | error e => rw [ht] at h; cases h
    | ok tail => rw [ht] at h; exact ⟨hsub, tail, rfl, (Except.ok.inj h).symm⟩

/-- Only no controls unfold to nothing. -/
theorem eq_nil_of_unfold {controls : List Control}
    (h : unfold references way controls = .ok .done) : controls = [] := by
  cases controls with
  | nil => rfl
  | cons c rest =>
    rcases unfold_cons_cases h with ⟨-, _, -, heq⟩ | ⟨-, _, _, _, -, -, -, heq⟩ <;> cases heq

/-- Only a plain control unfolds to a plain control in front. -/
theorem of_unfold_eq_plain {controls : List Control} {control : Control} {tail : SettingsTree}
    (h : unfold references way controls = .ok (.plain control tail)) :
    ∃ rest, controls = control :: rest ∧ ¬control.isSubSettings = true ∧
      unfold references way rest = .ok tail := by
  cases controls with
  | nil => rw [unfold_nil] at h; cases h
  | cons c rest =>
    rcases unfold_cons_cases h with ⟨hsub, _, ht, heq⟩ | ⟨-, _, _, _, -, -, -, heq⟩
    · cases heq
      exact ⟨rest, rfl, hsub, ht⟩
    · cases heq

/-- Only a sub-settings control whose reference can be followed unfolds to one in front. -/
theorem of_unfold_eq_nested {controls : List Control} {control : Control}
    {inner tail : SettingsTree}
    (h : unfold references way controls = .ok (.nested control inner tail)) :
    ∃ rest sub, controls = control :: rest ∧ control.isSubSettings = true ∧
      references.descend way control = .ok sub ∧
      unfold references (way ++ [sub.id]) sub.controls = .ok inner ∧
      unfold references way rest = .ok tail := by
  cases controls with
  | nil => rw [unfold_nil] at h; cases h
  | cons c rest =>
    rcases unfold_cons_cases h with ⟨-, _, -, heq⟩ | ⟨hsub, sub, _, _, hd, hi, ht, heq⟩
    · cases heq
    · cases heq
      exact ⟨rest, sub, rfl, hsub, hd, hi, ht⟩

theorem names_of_unfold {controls : List Control} {t : SettingsTree}
    (h : unfold references way controls = .ok t) : t.names = controls.map (·.name) := by
  induction controls generalizing t with
  | nil =>
    rw [unfold_nil] at h
    cases h
    rfl
  | cons control rest ih =>
    rcases unfold_cons_cases h with ⟨-, tail, ht, rfl⟩ | ⟨-, sub, inner, tail, -, -, ht, rfl⟩
    · simp [names, ih ht]
    · simp [names, ih ht]

end SettingsTree

namespace References

variable {references : References} {way : List String}

/-! ## Making, combining and writing back on the tree -/

/-- Making settings succeeds and fails as unfolding does. -/
theorem make_eq (controls : List Control) (parameters settings : Members) :
    references.make way parameters controls settings =
      (SettingsTree.unfold references way controls).map (·.make parameters settings) := by
  fun_induction SettingsTree.unfold references way controls generalizing parameters settings with
  | case1 way => exact make_nil
  | case2 way control rest hsub e hd => exact make_stops hsub hd rest
  | case3 way control rest hsub sub hd below ih =>
    rw [make_nested hsub hd, below]
    cases SettingsTree.unfold references (way ++ [sub.id]) sub.controls with
    | error e => rfl
    | ok t =>
      show references.make way parameters rest _ = _
      rw [ih]
      cases SettingsTree.unfold references way rest <;> rfl
  | case4 way control rest hsub ih =>
    rw [make_plain hsub, ih]
    cases SettingsTree.unfold references way rest <;> rfl

/-- Where the references unfold, working a document in is working it in on the tree. -/
theorem refine_of_unfold {controls : List Control} {t : SettingsTree}
    (h : SettingsTree.unfold references way controls = .ok t)
    (parameters document settings : Members) :
    references.refine way parameters document controls settings =
      .ok (t.refine parameters document settings) := by
  induction t generalizing way controls parameters document settings with
  | done =>
    rw [SettingsTree.eq_nil_of_unfold h]
    exact refine_nil
  | plain control tail ih =>
    obtain ⟨rest, rfl, hplain, ht⟩ := SettingsTree.of_unfold_eq_plain h
    rw [refine_other (fun _ _ => hplain), ih ht]
    rfl
  | nested control inner tail ihinner ihtail =>
    obtain ⟨rest, sub, rfl, hsub, hd, hi, ht⟩ := SettingsTree.of_unfold_eq_nested h
    by_cases hobject : ∃ upper, Members.get? document control.name = some (.object upper)
    · obtain ⟨upper, hget⟩ := hobject
      rw [refine_nested hget hsub hd, combineAt, make_eq, hi,
        SettingsTree.refine_nested_of_object hget]
      show (references.refine _ _ _ _ _ >>= _) = _
      rw [ihinner hi]
      exact ihtail ht _ _ _
    · rw [refine_other fun upper hget => absurd ⟨upper, hget⟩ hobject, ihtail ht,
        SettingsTree.refine_nested_of_ne fun upper hget => hobject ⟨upper, hget⟩]

/-! ## Writing one control back -/

section OneControl

variable {control : Control} {document parameters : Members}

theorem writeBack_nil :
    references.writeBack way document [] parameters = ⟨parameters, .ok ()⟩ := by
  rw [writeBack]
  rfl

theorem writeBack_absent (hget : Members.get? document control.name = none)
    (rest : List Control) :
    references.writeBack way document (control :: rest) parameters =
      references.writeBack way document rest parameters := by
  rw [writeBack, Controls.write, hget, writeBack]

theorem writeBack_value {value : Document}
    (hget : Members.get? document control.name = some value)
    (hno : ∀ sub, value = .object sub → ¬control.isSubSettings = true) (rest : List Control) :
    references.writeBack way document (control :: rest) parameters =
      references.writeBack way document rest (Members.put parameters control.name value) := by
  rw [writeBack, Controls.write, hget, writeBack]
  -- by `hno` the value is not one to go down into
  split
  · rename_i heq
    cases heq
  · rename_i upper heq hsub
    exact absurd hsub (hno upper (Option.some.inj heq))
  · rename_i heq _
    rw [Option.some.inj heq]

section Nested

variable {upper own : Members} {e : SettingsError} {next : Combiner}
  (hget : Members.get? document control.name = some (.object upper))
  (hsub : control.isSubSettings = true)
include hget hsub

/-- A reference that cannot be followed ends the writing; its entry has been made an object. -/
theorem writeBack_stops (hd : references.descend way control = .error e) (rest : List Control) :
    references.writeBack way document (control :: rest) parameters =
      ⟨SplitResult.openObject parameters control.name, .error e⟩ := by
  rw [writeBack, Controls.write, hget, hsub]
  simp only
  split
  · rename_i e' he
    cases he.symm.trans hd
    rfl
  · rename_i next' he
    cases he.symm.trans hd

variable (hd : references.descend way control = .ok next)
include hd

/-- An error below a reference ends the writing as well. -/
theorem writeBack_stops_below
    (hinner : references.writeBack (way ++ [next.id]) upper next.controls
      (Members.objectAt parameters control.name) = ⟨own, .error e⟩) (rest : List Control) :
    references.writeBack way document (control :: rest) parameters =
      ⟨Members.put parameters control.name (.object own), .error e⟩ := by
  rw [writeBack, Controls.write, hget, hsub]
  simp only
  split
  · rename_i e' he
    cases he.symm.trans hd
  · rename_i next' he
    cases he.symm.trans hd
    simp only [SettingsTree.objectAt_openObject, hinner, SettingsTree.put_openObject]
    rfl

theorem writeBack_nested
    (hinner : references.writeBack (way ++ [next.id]) upper next.controls
      (Members.objectAt parameters control.name) = ⟨own, .ok ()⟩) (rest : List Control) :
    references.writeBack way document (control :: rest) parameters =
      references.writeBack way document rest
        (Members.put parameters control.name (.object own)) := by
  rw [writeBack, Controls.write, hget, hsub, writeBack]
  simp only
  split
  · rename_i e' he
    cases he.symm.trans hd
  · rename_i next' he
    cases he.symm.trans hd
    simp only [SettingsTree.objectAt_openObject, hinner, SettingsTree.put_openObject]
    rfl

end Nested

end OneControl

/-- Where the references unfold, writing a document back is writing it back on the tree. -/
theorem writeBack_of_unfold {controls : List Control} {t : SettingsTree}
    (h : SettingsTree.unfold references way controls = .ok t) (document parameters : Members) :
    references.writeBack way document controls parameters =
      ⟨t.write document parameters, .ok ()⟩ := by
  induction t generalizing way controls document parameters with
  | done =>
    rw [SettingsTree.eq_nil_of_unfold h]
    exact writeBack_nil
  | plain control tail ih =>
    obtain ⟨rest, rfl, hplain, ht⟩ := SettingsTree.of_unfold_eq_plain h
    cases hget : Members.get? document control.name with
    | none =>
      rw [writeBack_absent hget, ih ht, SettingsTree.write, hget]
      rfl
    | some value =>
      rw [writeBack_value hget (fun _ _ => hplain), ih ht, SettingsTree.write, hget]
      rfl
  | nested control inner tail ihinner ihtail =>
    obtain ⟨rest, sub, rfl, hsub, hd, hi, ht⟩ := SettingsTree.of_unfold_eq_nested h
    by_cases hobject : ∃ upper, Members.get? document control.name = some (.object upper)
    · obtain ⟨upper, hget⟩ := hobject
      rw [writeBack_nested hget hsub hd (ihinner hi _ _), ihtail ht,
        SettingsTree.write_nested_of_object hget, SettingsTree.put_openObject]
    · have hne : ∀ upper, Members.get? document control.name ≠ some (.object upper) :=
        fun upper hget => hobject ⟨upper, hget⟩
      rw [SettingsTree.write_nested_of_ne hne]
      cases hget : Members.get? document control.name with
      | none =>
        rw [writeBack_absent hget]
        exact ihtail ht _ _
      | some value =>
        rw [writeBack_value hget fun upper hvalue => absurd (hvalue ▸ hget) (hne upper)]
        exact ihtail ht _ _

end References

namespace Combiner

variable {references : References}

/-- The tree of a combiner; the way starts at the combiner itself. -/
def tree (combiner : Combiner) (references : References) : Except SettingsError SettingsTree :=
  SettingsTree.unfold references [combiner.id] combiner.controls

theorem create_eq (combiner : Combiner) (parameters : Members) :
    combiner.create references parameters =
      (combiner.tree references).map (·.make parameters []) :=
  References.make_eq combiner.controls parameters []

/-- Settings are combined on the tree, and fail to be combined only where they fail to be made. -/
theorem combine_eq (combiner : Combiner) (parameters document : Members) :
    combiner.combine references parameters document =
      (combiner.tree references).map (·.combine parameters document) := by
  rw [combine, References.combineAt, References.make_eq]
  unfold tree
  cases h : SettingsTree.unfold references [combiner.id] combiner.controls with
  | error e => rfl
  | ok t => exact References.refine_of_unfold h parameters document _

/-- Making settings fails exactly as the references fail to unfold. -/
theorem create_error_iff {combiner : Combiner} {parameters : Members} {e : SettingsError} :
    combiner.create references parameters = .error e ↔ combiner.tree references = .error e := by
  rw [create_eq]
  cases combiner.tree references <;> simp [Except.map]

theorem combine_error_iff {combiner : Combiner} {parameters document : Members}
    {e : SettingsError} :
    combiner.combine references parameters document = .error e ↔
      combiner.tree references = .error e := by
  rw [combine_eq]
  cases combiner.tree references <;> simp [Except.map]

/-- The defaults exist exactly if the references unfold. -/
theorem defaults_ok_iff (combiner : Combiner) :
    (∃ settings, combiner.defaults references = .ok settings) ↔
      ∃ t, combiner.tree references = .ok t := by
  rw [defaults, create_eq]
  cases combiner.tree references with
  | error e => constructor <;> (rintro ⟨_, h⟩; cases h)
  | ok t => exact ⟨fun _ => ⟨t, rfl⟩, fun _ => ⟨_, rfl⟩⟩

/-- Settings are split on the tree: written back, and combined with what has been written. -/
theorem split_of_tree {combiner : Combiner} {t : SettingsTree}
    (h : combiner.tree references = .ok t) (parameters document : Members) :
    combiner.split references parameters document =
      ⟨t.write document parameters, .ok (t.combine (t.write document parameters) document)⟩ := by
  rw [split, References.writeBack_of_unfold h]
  simp only [combine_eq, h]
  rfl

end Combiner

end ExecutorHost
