import ExecutorHost.Proofs.Settings.Search
import Mathlib.Order.Bounds.Basic

/-!
# Settings within reach

The ids that a search finds are the least set that has the candidates describing settings and is
closed under resolved references. That the found ids are such a set is what settling says: every
reference of a found specification has been followed. That they are the least one holds at every
moment of the search, since a specification is only added as a candidate or as the target of a
control of one that has been added before.
-/

namespace ExecutorHost

open Relation

namespace SettingsSearch

variable {specifications : Loader Specification} {candidates : List String}

/-! ## Reach -/

/-- The settings specification of an id has a sub-settings control whose target has the other id. -/
def RefersTo (specifications : Loader Specification) (a b : String) : Prop :=
  ∃ s, settingsOf? specifications a = some s ∧ ∃ control ∈ s.controls,
    control.isSubSettings = true ∧ ∃ child, target? specifications control = some child ∧
      child.id = b

/-- A set of ids that has the candidates that describe settings, and with an id all ids that its
specification refers to. -/
structure Closed (specifications : Loader Specification) (candidates : List String)
    (ids : Set String) : Prop where
  /-- The candidates that describe settings are in the set. -/
  candidates : ∀ id ∈ candidates, ∀ s, settingsOf? specifications id = some s → id ∈ ids
  /-- The set does not refer to anything outside. -/
  references : ∀ a ∈ ids, ∀ b, RefersTo specifications a b → b ∈ ids

/-- The ids within reach of some candidates. -/
inductive Reached (specifications : Loader Specification) (candidates : List String) :
    String → Prop
  /-- A candidate that describes settings. -/
  | candidate {id : String} {s : Specification} (mem : id ∈ candidates)
      (settings : settingsOf? specifications id = some s) : Reached specifications candidates id
  /-- What something within reach refers to. -/
  | reference {a b : String} (reached : Reached specifications candidates a)
      (refers : RefersTo specifications a b) : Reached specifications candidates b

/-- What is within reach is the least closed set. -/
theorem isLeast_reached (specifications : Loader Specification) (candidates : List String) :
    IsLeast {ids | Closed specifications candidates ids}
      {id | Reached specifications candidates id} := by
  constructor
  · exact ⟨fun _ hmem _ hs => .candidate hmem hs, fun _ ha _ hab => .reference ha hab⟩
  · intro ids hids id hid
    induction hid with
    | candidate mem settings => exact hids.candidates _ mem _ settings
    | reference _ refers ih => exact hids.references _ ih _ refers

/-- A reference of what has been found is a reference of its sub-settings controls. -/
theorem refersTo_iff {a b : String} {s : Specification}
    (hs : settingsOf? specifications a = some s) :
    RefersTo specifications a b ↔ ∃ control ∈ s.subSettings, ∃ child,
      target? specifications control = some child ∧ child.id = b := by
  constructor
  · rintro ⟨t, ht, control, hmem, hsub, htarget⟩
    rw [hs] at ht
    cases ht
    exact ⟨control, List.mem_filter.2 ⟨hmem, hsub⟩, htarget⟩
  · rintro ⟨control, hcontrol, htarget⟩
    obtain ⟨hmem, hsub⟩ := List.mem_filter.1 hcontrol
    exact ⟨s, hs, control, hmem, hsub, htarget⟩

/-! ## What is found is within reach -/

/-- The next control in line belongs to something that has been found, so its target is within
reach if that is. -/
theorem Followed.reached_child {pending : List Pending} {past : String → List Control}
    {r : SearchResult} {parent : String} {control : Control} {left : List Control}
    {child : Specification}
    (h : Followed specifications (⟨parent, control :: left⟩ :: pending) past r)
    (hr : ∀ id, r.found.contains id = true → Reached specifications candidates id)
    (htarget : target? specifications control = some child) :
    Reached specifications candidates child.id := by
  have hparent := h.waiting _ List.mem_cons_self
  obtain ⟨s, hs⟩ := IdMap.contains_iff.1 hparent
  have hcontrols := h.controls parent s hs
  rw [leftOf, if_pos rfl] at hcontrols
  have hmem : control ∈ s.subSettings :=
    hcontrols ▸ List.mem_append_right _ List.mem_cons_self
  have hrefers : RefersTo specifications parent child.id :=
    (refersTo_iff (h.registered parent s hs)).2 ⟨control, hmem, child, htarget, rfl⟩
  exact .reference (hr parent hparent) hrefers

/-- Following keeps what is found within reach. -/
theorem reached_follow (hown : specifications.OwnIds) {pending : List Pending}
    {past : String → List Control} {r : SearchResult} (h : Followed specifications pending past r)
    (hr : ∀ id, r.found.contains id = true → Reached specifications candidates id) :
    ∀ id, (follow specifications pending r).found.contains id = true →
      Reached specifications candidates id := by
  fun_induction follow specifications pending r generalizing past with
  | case1 r => exact hr
  | case2 r parent rest ih => exact ih h.finish hr
  | case3 r parent control left rest hnone ih => exact ih (h.unresolve hnone) hr
  | case4 r parent control left rest child htarget hfound ih =>
    refine ih (h.refer htarget hfound) fun id hid => hr id ?_
    rwa [SearchResult.found_refer] at hid
  | case5 r parent control left rest child htarget hnew ih =>
    have hnone : r.found.get? child.id = none := by
      simpa [IdMap.contains] using hnew
    have hadd := h.add (of_target? hown htarget) hnone
    have hcontains : (r.add child.id child).found.contains child.id = true := by
      rw [SearchResult.found_add, IdMap.contains_insert, beq_self_eq_true, Bool.true_or]
    refine ih (hadd.refer htarget hcontains) fun id hid => ?_
    rw [SearchResult.found_refer, SearchResult.found_add, IdMap.contains_insert,
      Bool.or_eq_true] at hid
    rcases hid with hid | hid
    · rw [beq_iff_eq.1 hid]
      exact h.reached_child hr htarget
    · exact hr id hid

/-- Candidates are within reach if they describe settings. -/
theorem reached_start (rest : List String) (r : SearchResult) (line : List Pending)
    (hrest : ∀ id ∈ rest, id ∈ candidates)
    (hr : ∀ id, r.found.contains id = true → Reached specifications candidates id) :
    ∀ id, (start specifications rest r line).1.found.contains id = true →
      Reached specifications candidates id := by
  fun_induction start specifications rest r line with
  | case1 r line => exact hr
  | case2 key rest r line hnone ih => exact ih (fun id h => hrest id (List.mem_cons_of_mem _ h)) hr
  | case3 key rest r line s hs hfound ih =>
    exact ih (fun id h => hrest id (List.mem_cons_of_mem _ h)) hr
  | case4 key rest r line s hs hnew ih =>
    refine ih (fun id h => hrest id (List.mem_cons_of_mem _ h)) fun id hid => ?_
    rw [SearchResult.found_add, IdMap.contains_insert, Bool.or_eq_true] at hid
    rcases hid with hid | hid
    · rw [beq_iff_eq.1 hid]
      exact .candidate (hrest key List.mem_cons_self) hs
    · exact hr id hid

/-- A search finds exactly what is within reach. -/
theorem mem_ids_reach_iff (hown : specifications.OwnIds) {id : String} :
    id ∈ (reach specifications candidates).found.ids ↔ Reached specifications candidates id := by
  have hsettled := settled_reach hown candidates
  constructor
  · intro hid
    have hstart : ∀ id, (start specifications candidates .empty []).1.found.contains id = true →
        Reached specifications candidates id :=
      reached_start candidates .empty [] (fun _ h => h) fun _ h => nomatch h
    have hfollow := reached_follow hown (followed_start candidates Followed.empty) hstart
    exact hfollow id (IdMap.contains_iff.2 (IdMap.mem_ids_iff.1 hid))
  · intro hid
    induction hid with
    | candidate mem settings => exact IdMap.mem_ids_iff.2 ⟨_, found_reach hown mem settings⟩
    | reference _ refers ih =>
      obtain ⟨s, hs⟩ := IdMap.mem_ids_iff.1 ih
      obtain ⟨control, hmem, child, htarget, rfl⟩ :=
        (refersTo_iff (hsettled.registered _ s hs)).1 refers
      have hclosed := hsettled.closed _ s hs control hmem child htarget
      exact IdMap.mem_ids_iff.2 (IdMap.contains_iff.1 hclosed)

end SettingsSearch

end ExecutorHost
