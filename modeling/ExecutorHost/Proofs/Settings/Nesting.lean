import ExecutorHost.Proofs.Settings.Circle
import ExecutorHost.Proofs.Settings.Failure
import Mathlib

/-!
# Nesting of settings operations

Here the operations run as on a machine. All levels of settings share one way: an id goes on it when
the level of its settings is opened and leaves it when that level is done, whether it failed or not.
No more than a given number of levels may be open at once, and a run that needs more has no result.
One level more than the registered combiners have ids is always enough: the run then ends with the
result of the operation, and the way is as it was. Along the way each id refers to the next one, so
that a reference back onto it closes a circle of references.
-/

namespace ExecutorHost

/-- A run on a way that it may change; nothing if it needs more levels than may be open. -/
abbrev Walk (α : Type) := StateT (List String) Option α

namespace Walk

variable {α β : Type} {way : List String}

/-- A run comes to an end, and leaves the way as it was. -/
def Ends (walk : Walk α) (way : List String) (result : α) : Prop :=
  walk.run way = some (result, way)

theorem Ends.pure (a : α) : (pure a : Walk α).Ends way a := rfl

theorem Ends.bind {walk : Walk α} {next : α → Walk β} {a : α} {b : β} (h : walk.Ends way a)
    (hnext : (next a).Ends way b) : (walk >>= next).Ends way b := by
  unfold Ends at h hnext ⊢
  rw [StateT.run_bind, h]
  exact hnext

/-- What may fail ends with its error, or goes on and ends. -/
theorem Ends.bindExcept {walk : ExceptT SettingsError Walk α}
    {next : α → ExceptT SettingsError Walk β} {a : Except SettingsError α}
    {b : α → Except SettingsError β} (h : Walk.Ends walk.run way a)
    (hnext : ∀ x, Walk.Ends (next x).run way (b x)) :
    Walk.Ends (walk >>= next).run way (a >>= b) := by
  rw [ExceptT.run_bind]
  refine h.bind ?_
  cases a with
  | error e => exact .pure _
  | ok x => exact hnext x

end Walk

namespace Controls

variable {way : List String}

/-! ## One level -/

/-- The settings of one level are made if those below are. -/
theorem ends_make {below : Control → Members → ExceptT SettingsError Walk Members}
    {made : Control → Members → Except SettingsError Members}
    (h : ∀ control own, (below control own).run.Ends way (made control own))
    (parameters : Members) (controls : List Control) (settings : Members) :
    (make below parameters controls settings).run.Ends way
      (make made parameters controls settings) := by
  induction controls generalizing settings with
  | nil => exact .pure _
  | cons control rest ih =>
    by_cases hsub : control.isSubSettings = true
    · rw [make, make, if_pos hsub, if_pos hsub]
      exact Walk.Ends.bindExcept (h _ _) fun inner => ih _
    · rw [make, make, if_neg hsub, if_neg hsub]
      exact ih _

theorem ends_refine {below : Control → Members → Members → ExceptT SettingsError Walk Members}
    {merged : Control → Members → Members → Except SettingsError Members}
    (h : ∀ control own upper, (below control own upper).run.Ends way (merged control own upper))
    (parameters document : Members) (controls : List Control) (settings : Members) :
    (refine below parameters document controls settings).run.Ends way
      (refine merged parameters document controls settings) := by
  induction controls generalizing settings with
  | nil => exact .pure _
  | cons control rest ih =>
    rw [refine, refine]
    split
    · exact Walk.Ends.bindExcept (h _ _ _) fun inner => ih _
    · exact ih _

theorem ends_write
    {below : Control → Members → Members → Walk (Except SettingsError (SplitResult Unit))}
    {written : Control → Members → Members → Id (Except SettingsError (SplitResult Unit))}
    (h : ∀ control upper own, (below control upper own).Ends way (written control upper own))
    (document : Members) (controls : List Control) (parameters : Members) :
    (write below document controls parameters).Ends way
      (write written document controls parameters) := by
  induction controls generalizing parameters with
  | nil => exact .pure _
  | cons control rest ih =>
    rw [write, write]
    split
    · exact ih _
    · rename_i upper hget hsub
      refine (h _ _ _).bind ?_
      show Walk.Ends _ way (written control upper _ >>= _)
      cases hbelow : written control upper
        (Members.objectAt (SplitResult.openObject parameters control.name) control.name) with
      | error e => exact .pure _
      | ok inner =>
        obtain ⟨own, result⟩ := inner
        cases result with
        | error e => exact .pure _
        | ok done => exact ih _
    · exact ih _

end Controls

namespace References

/-! ## Runs on one way -/

/-- Something done with the settings that a control refers to, one level further down. -/
def visit {α : Type} (references : References) (control : Control) (below : Combiner → Walk α) :
    Walk (Except SettingsError α) := do
  match references.descend (← get) control with
  | .error e => return .error e
  | .ok sub =>
    modify (· ++ [sub.id])
    let result ← below sub
    modify (·.dropLast)
    return .ok result

/-- Something done there that may fail. -/
def enter {α : Type} (references : References) (control : Control)
    (below : Combiner → Walk (Except SettingsError α)) : ExceptT SettingsError Walk α := do
  let result ← ExceptT.mk (references.visit control below)
  ExceptT.mk (pure result)

/-- Making settings with so many levels to open. -/
def makeWithin (references : References) :
    Nat → Combiner → Members → Walk (Except SettingsError Members)
  | 0, _, _ => fun _ => none
  | levels + 1, c, parameters =>
    ExceptT.run <| Controls.make
      (fun control own => references.enter control (makeWithin references levels · own))
      parameters c.controls []

/-- Combining settings with so many levels to open. -/
def combineWithin (references : References) :
    Nat → Combiner → Members → Members → Walk (Except SettingsError Members)
  | 0, _, _, _ => fun _ => none
  | levels + 1, c, parameters, document => ExceptT.run do
    let made ← ExceptT.mk (references.makeWithin (levels + 1) c parameters)
    Controls.refine
      (fun control own upper =>
        references.enter control (combineWithin references levels · own upper))
      parameters document c.controls (Members.overlay made document)

/-- Writing a document back with so many levels to open. -/
def writeWithin (references : References) :
    Nat → Combiner → Members → Members → Walk (SplitResult Unit)
  | 0, _, _, _ => fun _ => none
  | levels + 1, c, document, parameters =>
    Controls.write
      (fun control upper own =>
        references.visit control (writeWithin references levels · upper own))
      document c.controls parameters

/-- Splitting with so many levels to open; combining starts after the writing. -/
def splitWithin (references : References) (levels : Nat) (c : Combiner)
    (parameters document : Members) : Walk (SplitResult Members) := do
  let written ← writeWithin references levels c document parameters
  match written.result with
  | .error e => return ⟨written.parameters, .error e⟩
  | .ok () =>
    let result ← combineWithin references levels c written.parameters document
    return ⟨written.parameters, result⟩

/-! ## Levels ahead -/

/-- The ids of the specifications of the registered combiners. -/
def specificationIds (references : References) : Finset String :=
  (references.registered.map Combiner.id).toFinset

/-- Those of them that are not on the way. -/
def idsAhead (references : References) (way : List String) : Finset String :=
  references.specificationIds.filter (· ∉ way)

variable {references : References} {way : List String} {control : Control}

/-- Going down leaves fewer ids ahead. -/
theorem card_idsAhead_lt {sub : Combiner} (h : references.descend way control = .ok sub) :
    (references.idsAhead (way ++ [sub.id])).card < (references.idsAhead way).card := by
  obtain ⟨href, hnew⟩ := of_descend h
  have hregistered : sub.id ∈ references.specificationIds := by
    have hvalue := references.mem_registered href
    unfold specificationIds
    rw [List.mem_toFinset]
    exact List.mem_map_of_mem hvalue
  have hbefore : sub.id ∈ references.idsAhead way := by
    unfold idsAhead
    exact Finset.mem_filter.2 ⟨hregistered, hnew⟩
  have hafter : sub.id ∉ references.idsAhead (way ++ [sub.id]) := by
    unfold idsAhead
    simp
  have hsub : references.idsAhead (way ++ [sub.id]) ⊆ references.idsAhead way := by
    intro id hid
    unfold idsAhead at hid ⊢
    rw [Finset.mem_filter] at hid ⊢
    exact ⟨hid.1, fun hmem => hid.2 (List.mem_append_left _ hmem)⟩
  apply Finset.card_lt_card
  exact ⟨hsub, fun hle => hafter (hle hbefore)⟩

/-! ## Visits -/

theorem visit_error {α : Type} {e : SettingsError} (hd : references.descend way control = .error e)
    (below : Combiner → Walk α) : (references.visit control below).Ends way (.error e) := by
  have hget : (get : Walk (List String)).Ends way way := rfl
  unfold visit
  refine hget.bind ?_
  rw [hd]
  exact .pure _

/-- What is done below ends with the id on the way, and the id leaves the way after it. -/
theorem visit_ok {α : Type} {sub : Combiner} {below : Combiner → Walk α} {result : α}
    (hd : references.descend way control = .ok sub)
    (hbelow : (below sub).Ends (way ++ [sub.id]) result) :
    (references.visit control below).Ends way (.ok result) := by
  have hget : (get : Walk (List String)).Ends way way := rfl
  unfold visit
  refine hget.bind ?_
  rw [hd]
  unfold Walk.Ends at hbelow ⊢
  have hpush : (modify (· ++ [sub.id]) : Walk PUnit).run way = some (⟨⟩, way ++ [sub.id]) := rfl
  have hpop : (modify (·.dropLast) : Walk PUnit).run (way ++ [sub.id]) = some (⟨⟩, way) := by
    show some (PUnit.unit, (way ++ [sub.id]).dropLast) = _
    rw [List.dropLast_concat]
  simp only [StateT.run_bind, hpush, hbelow, hpop, Option.bind_eq_bind, Option.bind_some]
  rfl

theorem enter_error {α : Type} {e : SettingsError}
    (hd : references.descend way control = .error e)
    (below : Combiner → Walk (Except SettingsError α)) :
    (references.enter control below).run.Ends way (.error e) :=
  Walk.Ends.bindExcept (visit_error hd below) fun _ => .pure _

/-- What may fail below ends with its own result. -/
theorem enter_ok {α : Type} {sub : Combiner} {below : Combiner → Walk (Except SettingsError α)}
    {result : Except SettingsError α} (hd : references.descend way control = .ok sub)
    (hbelow : (below sub).Ends (way ++ [sub.id]) result) :
    (references.enter control below).run.Ends way result :=
  Walk.Ends.bindExcept (visit_ok hd hbelow) fun _ => .pure _

/-! ## Enough levels -/

/-- Making ends if more levels may be opened than ids are ahead. -/
theorem ends_makeWithin {levels : Nat} {c : Combiner} {parameters : Members}
    (h : (references.idsAhead way).card < levels) :
    (references.makeWithin levels c parameters).Ends way
      (references.make way parameters c.controls []) := by
  -- the induction opens levels, of which one id ahead uses up one
  induction levels generalizing way c parameters with
  | zero => omega
  | succ levels ih =>
    rw [make]
    refine Controls.ends_make (fun control own => ?_) parameters c.controls []
    split
    · rename_i e hd
      exact enter_error hd _
    · rename_i sub hd
      have hfewer := card_idsAhead_lt hd
      exact enter_ok hd (ih (by omega))

theorem ends_combineWithin {levels : Nat} {c : Combiner} {parameters document : Members}
    (h : (references.idsAhead way).card < levels) :
    (references.combineWithin levels c parameters document).Ends way
      (references.combineAt way c parameters document) := by
  induction levels generalizing way c parameters document with
  | zero => omega
  | succ levels ih =>
    have hmade : (references.makeWithin (levels + 1) c parameters).Ends way _ :=
      ends_makeWithin h
    refine Walk.Ends.bindExcept hmade fun made => ?_
    rw [refine]
    refine Controls.ends_refine (fun control own upper => ?_) parameters document c.controls _
    split
    · rename_i e hd
      exact enter_error hd _
    · rename_i sub hd
      have hfewer := card_idsAhead_lt hd
      exact enter_ok hd (ih (by omega))

theorem ends_writeWithin {levels : Nat} {c : Combiner} {document parameters : Members}
    (h : (references.idsAhead way).card < levels) :
    (references.writeWithin levels c document parameters).Ends way
      (references.writeBack way document c.controls parameters) := by
  induction levels generalizing way c document parameters with
  | zero => omega
  | succ levels ih =>
    rw [writeBack]
    refine Controls.ends_write (fun control upper own => ?_) document c.controls parameters
    split
    · rename_i e hd
      exact visit_error hd _
    · rename_i sub hd
      have hfewer := card_idsAhead_lt hd
      exact visit_ok hd (ih (by omega))

/-- Splitting ends if more levels may be opened than ids are ahead of the combiner itself. -/
theorem ends_splitWithin {levels : Nat} {c : Combiner} {parameters document : Members}
    (h : (references.idsAhead [c.id]).card < levels) :
    (references.splitWithin levels c parameters document).Ends [c.id]
      (c.split references parameters document) := by
  have hwritten : (references.writeWithin levels c document parameters).Ends [c.id] _ :=
    ends_writeWithin h
  unfold splitWithin Combiner.split
  cases hresult : references.writeBack [c.id] document c.controls parameters with
  | mk written result =>
  rw [hresult] at hwritten
  refine hwritten.bind ?_
  cases result with
  | error e => exact .pure _
  | ok done =>
    have hcombined : (references.combineWithin levels c written document).Ends [c.id] _ :=
      ends_combineWithin h
    exact hcombined.bind (.pure _)

/-! ## Circles -/

/-- An id refers to another one: a sub-settings control of the root, or of a registered combiner,
with the first id resolves to a combiner with the second one. -/
def IdRefersTo (references : References) (root : Combiner) (a b : String) : Prop :=
  ∃ x y, (x = root ∨ x ∈ references.registered) ∧ x.id = a ∧ y.id = b ∧
    ∃ control ∈ x.controls, control.isSubSettings = true ∧ references.resolve control = .ok y

/-- On the way of a trail no id stands twice. Each id on it refers to the next one, and the last one
to whatever the combiner at the end of the trail refers to. -/
theorem Trail.continued {root b : Combiner} (h : Trail references root way b) :
    way.Nodup ∧ ∀ control ∈ b.controls, control.isSubSettings = true →
      ∀ next, references.referenced? control = some next →
        (way ++ [next.id]).IsChain (references.IdRefersTo root) := by
  have hrefers : ∀ {x y : Combiner} {control : Control}, (x = root ∨ x ∈ references.registered) →
      control ∈ x.controls → control.isSubSettings = true →
      references.referenced? control = some y → references.IdRefersTo root x.id y.id := by
    intro x y control hx hmem hsub href
    have hresolve : references.resolve control = .ok y := by
      unfold resolve
      rw [href]
    exact ⟨x, y, hx, rfl, rfl, control, hmem, hsub, hresolve⟩
  induction h with
  | start =>
    refine ⟨List.nodup_singleton _, ?_⟩
    intro control hmem hsub next href
    exact List.isChain_pair.2 (hrefers (.inl rfl) hmem hsub href)
  | step trail mem nested leads ih =>
    rename_i way b last control
    obtain ⟨hdistinct, hchain⟩ := ih
    obtain ⟨hlast, hnew⟩ := of_descend leads
    constructor
    · rw [← List.concat_eq_append, List.nodup_concat]
      exact ⟨hnew, hdistinct⟩
    · intro further hmem hsub next href
      have hstep := hrefers (.inr (references.mem_registered hlast)) hmem hsub href
      refine List.isChain_append.2 ⟨hchain control mem nested last hlast, .singleton _, ?_⟩
      intro x hx y hy
      rw [List.getLast?_concat] at hx
      cases hx
      cases hy
      exact hstep

/-- Where a circle stops an operation, it is one of references. -/
theorem Stuck.isCircle {root : Combiner} {ids : List String}
    (h : Stuck references [root.id] root.controls (.cycle ids)) :
    IsCircle (references.IdRefersTo root) ids := by
  obtain ⟨way, b, control, trail, hmem, hsub, hd⟩ := h.exists_trail .start
  obtain ⟨hdistinct, hchain⟩ := trail.continued
  rcases descend_error_cases hd with ⟨-, he⟩ | ⟨next, href, hon, he⟩
  · cases he
  · cases he
    exact isCircle_of_isChain (hchain control hmem hsub next href) hdistinct hon

end References

namespace Combiner

variable {combiners : Combiners} {c : Combiner} {parameters document : Members}

/-- Settings operations end, whatever the combiners refer to: with one level more to open than the
registered combiners have ids of specifications, each of them has its result and the way is as it
was. A circle that one of them reports is a circle of references, in which the ids are distinct but
for the first one, which stands at the end again. -/
theorem operations_end (combiners : Combiners) (c : Combiner) (parameters document : Members) :
    ((combiners.references.makeWithin (1 + combiners.references.specificationIds.card) c
        parameters).Ends [c.id] (c.create combiners parameters) ∧
      (combiners.references.combineWithin (1 + combiners.references.specificationIds.card) c
        parameters document).Ends [c.id] (c.combine combiners parameters document) ∧
      (combiners.references.splitWithin (1 + combiners.references.specificationIds.card) c
        parameters document).Ends [c.id] (c.split combiners parameters document)) ∧
    ∀ ids, (c.create combiners parameters = .error (.cycle ids) ∨
        c.combine combiners parameters document = .error (.cycle ids) ∨
        (c.split combiners parameters document).result = .error (.cycle ids)) →
      IsCircle (combiners.references.IdRefersTo c) ids := by
  have henough : (combiners.references.idsAhead [c.id]).card <
      1 + combiners.references.specificationIds.card := by
    have hle : (combiners.references.idsAhead [c.id]).card ≤
        combiners.references.specificationIds.card := by
      unfold References.idsAhead
      apply Finset.card_filter_le
    omega
  refine ⟨⟨References.ends_makeWithin henough, References.ends_combineWithin henough,
    References.ends_splitWithin henough⟩, ?_⟩
  rintro ids (h | h | h)
  · exact (References.stuck_of_unfold (create_error_iff.1 h)).isCircle
  · exact (References.stuck_of_unfold (combine_error_iff.1 h)).isCircle
  · exact (stuck_of_split h).isCircle

end Combiner

namespace Sample

/-- Settings with a control for each reference; `none` refers by the name of the control. -/
def referring (id name : String) (references : List (String × Option String)) : Combiner where
  specification :=
    { version := "0.0.1", id := id, name := name, role := some ⟨name, true⟩,
      controls := references.map fun (control, target) =>
        { name := control, valueType := "settings", settingsId := target } }
  name := name
  named := rfl

/-- Two combiners that refer to each other, one of them registered under an id of another. -/
def pair : Combiners :=
  (IdMap.empty.insert "x" (referring "left" "left" [("other", some "y")])).insert "y"
    (referring "right" "right" [("left", none)])

/-- A combiner that is not registered and refers to one of the pair. -/
def above : Combiner := referring "above" "above" [("first", some "x")]

theorem create_above :
    above.create pair [] = .error (.cycle ["left", "right", "left"]) := by
  cbv

end Sample

namespace Combiner

/-- Three levels are enough above a pair of combiners that refer to each other. -/
theorem operations_end_above :
    Sample.pair.references.specificationIds.card = 2 ∧
    (Sample.pair.references.makeWithin 3 Sample.above []).Ends ["above"]
      (.error (.cycle ["left", "right", "left"])) ∧
    Sample.above.create Sample.pair [] = .error (.cycle ["left", "right", "left"]) ∧
    IsCircle (Sample.pair.references.IdRefersTo Sample.above) ["left", "right", "left"] := by
  obtain ⟨⟨hmade, -, -⟩, hcircle⟩ := operations_end Sample.pair Sample.above [] []
  have hcard : Sample.pair.references.specificationIds.card = 2 := by decide
  rw [hcard, Sample.create_above] at hmade
  exact ⟨hcard, hmade, Sample.create_above, hcircle _ (.inl Sample.create_above)⟩

end Combiner

end ExecutorHost
