import ExecutorHost.Proofs.Settings.Failure
import ExecutorHost.Proofs.Settings.Registration

/-!
# Agreement of search and combiners

The search follows references among the specifications of a loader, the combiners follow them among
each other. They lead the same way. So the search meets a circle exactly if some combiner refers to
itself by way of others, and an unresolved reference exactly if some combiner has one. Nothing else
makes settings fail.
-/

namespace ExecutorHost

open Relation SettingsSearch

namespace Combiners

/-- Every registered combiner makes, combines and splits settings, whatever it is given. -/
def Usable (combiners : Combiners) : Prop :=
  ∀ id c, combiners.get? id = some c → ∀ parameters document,
    (∃ settings, c.create combiners parameters = .ok settings) ∧
    (∃ settings, c.combine combiners parameters document = .ok settings) ∧
    ∃ settings, (c.split combiners parameters document).result = .ok settings

/-- No registered combiner reports a circle, whatever it is given. -/
def CircleFree (combiners : Combiners) : Prop :=
  ∀ id c, combiners.get? id = some c → ∀ parameters document ids,
    c.create combiners parameters ≠ .error (.cycle ids) ∧
    c.combine combiners parameters document ≠ .error (.cycle ids) ∧
    (c.split combiners parameters document).result ≠ .error (.cycle ids)

/-! ## Errors of combiners -/

section Errors

variable {combiners : Combiners} {c : Combiner} {e : SettingsError}

/-- If no combiner refers to itself, controls only get stuck at references that do not resolve. -/
theorem unresolved_of_stuck
    (hreg : ∀ control next, combiners.referenced? control = some next →
      combiners.get? next.id = some next)
    (hacyclic : ∀ a, combiners.get? a.id = some a → ¬ TransGen combiners.references.RefersTo a a)
    (hc : combiners.get? c.id = some c) (h : combiners.references.Stuck [c.id] c.controls e) :
    ∃ b control, combiners.get? b.id = some b ∧ control ∈ b.controls ∧
      control.isSubSettings = true ∧ combiners.referenced? control = none ∧
      e = .subSettingsNotFound control.name control.target := by
  have hreached : ∀ a, ReflTransGen combiners.references.RefersTo c a →
      combiners.get? a.id = some a := by
    intro a ha
    cases ha with
    | refl => exact hc
    | tail _ hlast =>
      obtain ⟨control, -, -, href⟩ := hlast
      exact hreg control a href
  obtain ⟨way, b, control, trail, hmem, hsub, hd⟩ := h.exists_trail .start
  rcases References.descend_error_cases hd with ⟨hnone, he⟩ | ⟨next, href, hway, -⟩
  · exact ⟨b, control, hreached b trail.refers, hmem, hsub, hnone, he⟩
  · -- the way has been at this id before, and that was the same combiner
    obtain ⟨a, hid, hca, hab⟩ := trail.exists_of_mem hway
    have hget := hreached a hca
    rw [hid, hreg control next href] at hget
    cases hget
    have hloop : TransGen combiners.references.RefersTo next next :=
      .tail' hab ⟨control, hmem, hsub, href⟩
    exact absurd hloop (hacyclic next (hreg control next href))

/-- Settings can be made, combined and split if the references unfold. -/
theorem usable_of_tree
    (h : ∀ id c, combiners.get? id = some c → ∃ t, c.tree combiners = .ok t) :
    combiners.Usable := by
  intro id c hget parameters document
  obtain ⟨t, ht⟩ := h id c hget
  refine ⟨?_, ?_, ?_⟩
  · rw [Combiner.create_eq, ht]
    exact ⟨_, rfl⟩
  · rw [Combiner.combine_eq, ht]
    exact ⟨_, rfl⟩
  · rw [Combiner.split_of_tree ht]
    exact ⟨_, rfl⟩

/-- A reference of a usable combiner can be followed. -/
theorem Usable.exists_tree (h : combiners.Usable) {id : String}
    (hget : combiners.get? id = some c) : ∃ t, c.tree combiners = .ok t :=
  c.defaults_ok_iff.1 (h id c hget [] []).1

end Errors

/-! ## The two graphs -/

section Graphs

variable {specifications : Loader Specification} {combiners : Combiners} {r : SearchResult}
  (hown : specifications.OwnIds) (hall : combiners.entries = Combiner.allOf specifications)
include hown hall

theorem id_of_get? {id : String} {c : Combiner} (h : combiners.get? id = some c) : c.id = id :=
  hown id c.specification (settingsOf?_eq_some_iff.1 ((get?_eq_some_iff hall).1 h)).1

/-- A combiner that is referred to is registered under its id. -/
theorem registered_of_referenced? {control : Control} {c : Combiner}
    (h : combiners.referenced? control = some c) : combiners.get? c.id = some c :=
  (get?_eq_some_iff hall).2 (of_target? hown ((referenced?_eq_some_iff hall).1 h))

omit hown in
theorem exists_combiner {id : String} {s : Specification}
    (h : settingsOf? specifications id = some s) :
    ∃ c, combiners.get? id = some c ∧ c.specification = s := by
  obtain ⟨name, hname⟩ := Specification.isSettings_iff.1 (settingsOf?_eq_some_iff.1 h).2
  exact ⟨⟨s, name, hname⟩, (get?_eq_some_iff hall).2 h, rfl⟩

/-- A pointer of the search is a reference between combiners. -/
theorem refersTo_of_pointsTo (hr : r.Settled specifications) {x y : String}
    (h : r.children.PointsTo x y) :
    ∃ a b, combiners.get? x = some a ∧ combiners.get? y = some b ∧
      combiners.references.RefersTo a b := by
  obtain ⟨s, hs, control, hcontrol, child, htarget, rfl⟩ := hr.pointsTo_iff.1 h
  obtain ⟨a, ha, rfl⟩ := exists_combiner hall (hr.registered x s hs)
  obtain ⟨b, hb, rfl⟩ := exists_combiner hall (of_target? hown htarget)
  obtain ⟨hmem, hsub⟩ := List.mem_filter.1 hcontrol
  exact ⟨a, b, ha, hb, control, hmem, hsub, (referenced?_eq_some_iff hall).2 htarget⟩

theorem transGen_refersTo (hr : r.Settled specifications) {x y : String}
    (h : TransGen r.children.PointsTo x y) :
    ∃ a b, combiners.get? x = some a ∧ combiners.get? y = some b ∧
      TransGen combiners.references.RefersTo a b := by
  induction h with
  | single hstep =>
    obtain ⟨a, b, ha, hb, hab⟩ := refersTo_of_pointsTo hown hall hr hstep
    exact ⟨a, b, ha, hb, .single hab⟩
  | tail _ hstep ih =>
    obtain ⟨a, b, ha, hb, hab⟩ := ih
    obtain ⟨b', c, hb', hc, hbc⟩ := refersTo_of_pointsTo hown hall hr hstep
    cases hb.symm.trans hb'
    exact ⟨a, c, ha, hc, hab.tail hbc⟩

variable (hr : r.Settled specifications)
  (hfound : ∀ id s, settingsOf? specifications id = some s → r.found.get? id = some s)
include hr hfound

omit hown in
/-- A reference between combiners is a pointer of a search that has found everything. -/
theorem pointsTo_of_refersTo {a b : Combiner} (ha : combiners.get? a.id = some a)
    (h : combiners.references.RefersTo a b) : r.children.PointsTo a.id b.id := by
  obtain ⟨control, hmem, hsub, href⟩ := h
  refine hr.pointsTo_iff.2 ⟨a.specification, hfound _ _ ((get?_eq_some_iff hall).1 ha), control,
    List.mem_filter.2 ⟨hmem, hsub⟩, b.specification, (referenced?_eq_some_iff hall).1 href, rfl⟩

theorem transGen_pointsTo {a b : Combiner} (ha : combiners.get? a.id = some a)
    (h : TransGen combiners.references.RefersTo a b) : TransGen r.children.PointsTo a.id b.id := by
  induction h using TransGen.head_induction_on with
  | single hstep => exact .single (pointsTo_of_refersTo hall hr hfound ha hstep)
  | head hstep _ ih =>
    obtain ⟨control, -, -, href⟩ := id hstep
    exact .head (pointsTo_of_refersTo hall hr hfound ha hstep)
      (ih (registered_of_referenced? hown hall href))

/-- If the search meets no circle, combiners only get stuck at references that do not resolve. -/
theorem unresolved_of_acyclic (hacyclic : ∀ id, ¬ TransGen r.children.PointsTo id id) {id : String}
    {c : Combiner} (hget : combiners.get? id = some c) {e : SettingsError}
    (h : combiners.references.Stuck [c.id] c.controls e) :
    ∃ b control, combiners.get? b.id = some b ∧ control ∈ b.controls ∧
      control.isSubSettings = true ∧ combiners.referenced? control = none ∧
      e = .subSettingsNotFound control.name control.target := by
  obtain rfl := id_of_get? hown hall hget
  refine unresolved_of_stuck (fun control next => registered_of_referenced? hown hall)
    (fun a ha hloop => ?_) hget h
  exact hacyclic a.id (transGen_pointsTo hown hall hr hfound ha hloop)

/-- If the search meets no circle, combiners report none. -/
theorem circleFree_of_acyclic (hacyclic : ∀ id, ¬ TransGen r.children.PointsTo id id) :
    combiners.CircleFree := by
  intro id c hget parameters document ids
  have hnot : ¬ combiners.references.Stuck [c.id] c.controls (.cycle ids) := by
    intro h
    obtain ⟨_, _, -, -, -, -, he⟩ := unresolved_of_acyclic hown hall hr hfound hacyclic hget h
    cases he
  refine ⟨fun h => hnot ?_, fun h => hnot ?_, fun h => hnot ?_⟩
  · exact References.stuck_of_unfold (Combiner.create_error_iff.1 h)
  · exact References.stuck_of_unfold (Combiner.combine_error_iff.1 h)
  · exact Combiner.stuck_of_split h

/-- Combiners are usable exactly if the search meets no circle and resolves every reference. -/
theorem usable_iff :
    combiners.Usable ↔
      (∀ id, ¬ TransGen r.children.PointsTo id id) ∧ r.isComplete = true := by
  rw [hr.isComplete_iff]
  constructor
  · intro h
    refine ⟨fun id hloop => ?_, fun id s hs control hcontrol => ?_⟩
    · obtain ⟨a, b, ha, hb, hab⟩ := transGen_refersTo hown hall hr hloop
      cases ha.symm.trans hb
      obtain ⟨t, ht⟩ := h.exists_tree ha
      exact Combiner.not_refers_self ht hab
    · obtain ⟨c, hc, rfl⟩ := exists_combiner hall (hr.registered id s hs)
      obtain ⟨t, ht⟩ := h.exists_tree hc
      obtain ⟨hmem, hsub⟩ := List.mem_filter.1 hcontrol
      obtain ⟨next, -, hd, -⟩ := References.unfold_of_mem ht hmem hsub
      exact ⟨next.specification, (referenced?_eq_some_iff hall).1 (References.of_descend hd).1⟩
  · rintro ⟨hacyclic, hcomplete⟩
    refine usable_of_tree fun id c hget => ?_
    cases ht : c.tree combiners with
    | ok t => exact ⟨t, rfl⟩
    | error e =>
      obtain ⟨b, control, hb, hmem, hsub, hnone, -⟩ :=
        unresolved_of_acyclic hown hall hr hfound hacyclic hget (References.stuck_of_unfold ht)
      have hs := hfound b.id b.specification ((get?_eq_some_iff hall).1 hb)
      obtain ⟨child, htarget⟩ := hcomplete _ _ hs control (List.mem_filter.2 ⟨hmem, hsub⟩)
      obtain ⟨next, -, rfl⟩ := exists_combiner hall (of_target? hown htarget)
      rw [(referenced?_eq_some_iff hall).2 htarget] at hnone
      cases hnone

end Graphs

end Combiners

namespace SettingsSearch

variable {specifications : Loader Specification} {combiners : Combiners}

theorem run_ok_iff :
    (∃ r, (({} : SettingsSearch).run specifications).2 = .ok r) ↔
      ∀ id, ¬ TransGen
        (reach specifications (probableIds specifications)).children.PointsTo id id := by
  have hprocess : (({} : SettingsSearch).run specifications).2 =
      process specifications (probableIds specifications) := by
    rw [run, Option.getD_none]
    cases process specifications (probableIds specifications) <;> rfl
  rw [hprocess]
  constructor
  · rintro ⟨r, hr⟩
    exact (process_ok_iff.1 hr).2
  · exact fun h => ⟨_, process_ok_iff.2 ⟨rfl, h⟩⟩

theorem isComplete_run {r : SearchResult}
    (h : (({} : SettingsSearch).run specifications).2 = .ok r) :
    (({} : SettingsSearch).run specifications).1.isComplete =
      (reach specifications (probableIds specifications)).isComplete := by
  rw [run, Option.getD_none] at h ⊢
  cases hp : process specifications (probableIds specifications) with
  | error e =>
    rw [hp] at h
    cases h
  | ok found =>
    obtain ⟨rfl, -⟩ := process_ok_iff.1 hp
    rfl

section Agreement

variable (hown : specifications.OwnIds) (hall : combiners.entries = Combiner.allOf specifications)
include hown hall

/-- A new search succeeds and is complete exactly if the combiners of all specifications are
usable. -/
theorem run_complete_iff :
    ((∃ r, (({} : SettingsSearch).run specifications).2 = .ok r) ∧
      (({} : SettingsSearch).run specifications).1.isComplete = true) ↔ combiners.Usable := by
  rw [Combiners.usable_iff hown hall (settled_reach hown _)
    fun id s hs => found_reach hown (mem_probableIds hs) hs, ← run_ok_iff]
  refine and_congr_right fun ⟨r, hr⟩ => ?_
  rw [isComplete_run hr]

/-- If a new search succeeds, no combiner reports a circle. -/
theorem circleFree_of_run {r : SearchResult}
    (h : (({} : SettingsSearch).run specifications).2 = .ok r) : combiners.CircleFree :=
  Combiners.circleFree_of_acyclic hown hall (settled_reach hown _)
    (fun _ _ hs => found_reach hown (mem_probableIds hs) hs) (run_ok_iff.1 ⟨r, h⟩)

end Agreement

end SettingsSearch

end ExecutorHost
