import Mathlib.Data.List.Nodup
import ExecutorHost.Executor.Change
import ExecutorHost.Proofs.Document.Shape

/-!
# Names of controls

A control that is added takes the place of the first one of its name, and removing a name takes the
first one of that name away. So no edit makes a name stand twice. A document does: its controls are
taken as they are written, and a name that it repeats stands as often as it is written until its
copies have been removed one by one.
-/

namespace ExecutorHost

namespace Specification

variable {control : Control} {name : String} {controls : List Control}

/-! ## One edit of a list -/

/-- What adding a control does: it comes last, or it stands where the first of its name stood. -/
theorem putControl_cases (control : Control) (controls : List Control) :
    (control.name ∉ controls.map Control.name ∧
        putControl control controls = controls ++ [control]) ∨
      ∃ front old back, controls = front ++ old :: back ∧ old.name = control.name ∧
        control.name ∉ front.map Control.name ∧
        putControl control controls = front ++ control :: back := by
  induction controls with
  | nil => exact .inl ⟨List.not_mem_nil, rfl⟩
  | cons c rest ih =>
    by_cases hname : c.name = control.name
    · refine .inr ⟨[], c, rest, rfl, hname, List.not_mem_nil, ?_⟩
      rw [putControl, if_pos hname]
      rfl
    · have hput : putControl control (c :: rest) = c :: putControl control rest := by
        rw [putControl, if_neg hname]
      have hskip : ∀ others : List Control, control.name ∉ others.map Control.name →
          control.name ∉ (c :: others).map Control.name := by
        intro others hothers hmem
        rcases List.mem_cons.1 hmem with heq | hlater
        · exact hname heq.symm
        · exact hothers hlater
      rcases ih with ⟨hnew, hrest⟩ | ⟨front, old, back, hsplit, hold, hfront, hrest⟩
      · refine .inl ⟨hskip rest hnew, ?_⟩
        rw [hput, hrest, List.cons_append]
      · refine .inr ⟨c :: front, old, back, ?_, hold, hskip front hfront, ?_⟩
        · rw [hsplit, List.cons_append]
        · rw [hput, hrest, List.cons_append]

theorem names_putControl (control : Control) (controls : List Control) :
    (putControl control controls).map Control.name =
      if control.name ∈ controls.map Control.name then controls.map Control.name
      else controls.map Control.name ++ [control.name] := by
  rcases putControl_cases control controls with
    ⟨hnew, hput⟩ | ⟨front, old, back, rfl, hold, -, hput⟩
  · rw [if_neg hnew, hput, List.map_append]
    rfl
  · have hmem : control.name ∈ (front ++ old :: back).map Control.name := by
      rw [← hold]
      exact List.mem_map_of_mem (List.mem_append_right _ List.mem_cons_self)
    rw [if_pos hmem, hput]
    simp [hold]

theorem names_dropControl (name : String) (controls : List Control) :
    (dropControl name controls).map Control.name = (controls.map Control.name).erase name := by
  induction controls with
  | nil => rfl
  | cons c rest ih =>
    rw [dropControl, List.map_cons, List.erase_cons]
    by_cases hname : c.name = name
    · rw [if_pos hname, if_pos (by simpa using hname)]
    · rw [if_neg hname, if_neg (by simpa using hname), List.map_cons, ih]

/-! ## What an edit leaves -/

/-- The names of the controls, in order. -/
def controlNames (s : Specification) : List String := s.controls.map Control.name

/-- A control that has been added to a list is the only one of its name in it. It stands where the
old one of its name stood, or last if there was none, and everything else is as it was. -/
def TakesPlace (control : Control) (before after : List Control) : Prop :=
  ∃ front back, after = front ++ control :: back ∧
    control.name ∉ (front ++ back).map Control.name ∧
    ((back = [] ∧ before = front) ∨
      ∃ old, old.name = control.name ∧ before = front ++ old :: back)

theorem count_names_split {front back : List Control} {old : Control} (hold : old.name = name) :
    ((front ++ old :: back).map Control.name).count name =
      ((front ++ back).map Control.name).count name + 1 := by
  subst hold
  simp only [List.map_append, List.map_cons, List.count_append, List.count_cons_self]
  omega

theorem takesPlace_iff (control : Control) (controls : List Control) :
    TakesPlace control controls (putControl control controls) ↔
      (controls.map Control.name).count control.name ≤ 1 := by
  constructor
  · rintro ⟨front, back, -, hothers, ⟨rfl, rfl⟩ | ⟨old, hold, rfl⟩⟩
    · rw [List.append_nil] at hothers
      rw [List.count_eq_zero.2 hothers]
      omega
    · have hnone := List.count_eq_zero.2 hothers
      rw [count_names_split hold]
      omega
  · intro hcount
    rcases putControl_cases control controls with
      ⟨hnew, hput⟩ | ⟨front, old, back, rfl, hold, -, hput⟩
    · refine ⟨controls, [], hput, ?_, .inl ⟨rfl, rfl⟩⟩
      rwa [List.append_nil]
    · rw [count_names_split hold] at hcount
      have hothers : ((front ++ back).map Control.name).count control.name = 0 := by omega
      exact ⟨front, back, hput, List.count_eq_zero.1 hothers, .inr ⟨old, hold, rfl⟩⟩

theorem control?_eq_none_iff (s : Specification) (name : String) :
    s.control? name = none ↔ name ∉ s.controlNames := by
  simp [control?, controlNames, List.find?_eq_none]

theorem control?_removeControl_eq_none_iff (s : Specification) (name : String) :
    (s.removeControl name).control? name = none ↔ s.controlNames.count name ≤ 1 := by
  have hnames : (s.removeControl name).controlNames = s.controlNames.erase name :=
    names_dropControl name s.controls
  rw [control?_eq_none_iff, hnames, ← List.count_eq_zero, List.count_erase_self]
  omega

/-! ## The names that a document gives -/

/-- The name that a written control gives; a control may be written as a list of its fields. -/
def writtenName? : Document → Option String
  | .object members => (Members.get? members "name").bind Document.string?
  | .array items => items.head?.bind Document.string?
  | _ => none

/-- The names that a document gives to controls, in order. -/
def writtenNames (d : Document) : List String :=
  let controls := (d.members?.bind (Members.get? · "controls")).bind Document.items?
  (controls.getD []).filterMap writtenName?

theorem writtenName?_of_shape {d : Document} (h : Control.shape d = .ok control) :
    writtenName? d = some control.name := by
  obtain ⟨source, hbuild, hwritten⟩ := Shape.exists_of_record h
  obtain ⟨name, hname, hbuild⟩ := exists_of_bind_eq_ok hbuild
  obtain ⟨valueType, -, hbuild⟩ := exists_of_bind_eq_ok hbuild
  obtain ⟨default, -, hbuild⟩ := exists_of_bind_eq_ok hbuild
  obtain ⟨settingsId, -, hbuild⟩ := exists_of_bind_eq_ok hbuild
  obtain ⟨caption, -, hbuild⟩ := exists_of_bind_eq_ok hbuild
  obtain ⟨description, -, hbuild⟩ := exists_of_bind_eq_ok hbuild
  cases hbuild
  obtain ⟨text, hfound, hstring⟩ := Shape.Source.of_required hname
  have hread : (Members.get? source.members "name").bind Document.string? = some name := by
    rw [hfound, Shape.of_string hstring]
    rfl
  rcases hwritten with rfl | ⟨items, rfl, hitems⟩
  · exact hread
  · -- the name is the first of the fields
    have hfirst : Members.get? ((Control.fields.map (·.name)).zip items) "name" = items.head? := by
      cases items <;> rfl
    rwa [hitems, hfirst] at hread

theorem names_of_shapes {items : List Document}
    (h : List.Forall₂ (fun d control => Control.shape d = .ok control) items controls) :
    items.filterMap writtenName? = controls.map Control.name := by
  induction h with
  | nil => rfl
  | cons hfirst _ ih =>
    rw [List.filterMap_cons_some (writtenName?_of_shape hfirst), List.map_cons, ih]

/-- A specification is read from an object, and its controls from the member of that name. -/
theorem exists_of_parse {d : Document} {file : Option Path} {s : Specification}
    (h : parse d file = .ok s) :
    ∃ source : Shape.Source, d = .object source.members ∧
      source.getOr "controls" (Shape.list Control.shape) [] = .ok s.controls := by
  unfold parse at h
  by_cases hmarked : isSpecification d = true
  · rw [if_pos hmarked] at h
    obtain ⟨source, hbuild, hwritten⟩ := Shape.exists_of_record (mapError_eq_ok_iff.1 h)
    obtain ⟨app, -, hbuild⟩ := exists_of_bind_eq_ok hbuild
    obtain ⟨version, -, hbuild⟩ := exists_of_bind_eq_ok hbuild
    obtain ⟨id, -, hbuild⟩ := exists_of_bind_eq_ok hbuild
    obtain ⟨name, -, hbuild⟩ := exists_of_bind_eq_ok hbuild
    obtain ⟨category, -, hbuild⟩ := exists_of_bind_eq_ok hbuild
    obtain ⟨description, -, hbuild⟩ := exists_of_bind_eq_ok hbuild
    obtain ⟨role, -, hbuild⟩ := exists_of_bind_eq_ok hbuild
    obtain ⟨inPorts, -, hbuild⟩ := exists_of_bind_eq_ok hbuild
    obtain ⟨outPorts, -, hbuild⟩ := exists_of_bind_eq_ok hbuild
    obtain ⟨controls, hcontrols, hbuild⟩ := exists_of_bind_eq_ok hbuild
    cases hbuild
    rcases hwritten with hobject | ⟨items, rfl, -⟩
    · exact ⟨source, hobject, hcontrols⟩
    · cases hmarked
  · rw [if_neg hmarked] at h
    cases h

/-- Reading takes the controls as they are written, those of repeated names as well. -/
theorem controlNames_of_parse {d : Document} {file : Option Path} {s : Specification}
    (h : parse d file = .ok s) : s.controlNames = writtenNames d := by
  obtain ⟨source, rfl, hcontrols⟩ := exists_of_parse h
  show s.controls.map Control.name = _
  rcases Shape.Source.of_getOr hcontrols with ⟨habsent, hnone⟩ | ⟨list, hfound, hlist⟩
  · simp [writtenNames, Document.members?, habsent, hnone]
  · obtain ⟨items, rfl, hread⟩ := Shape.exists_of_list hlist
    simp [writtenNames, Document.members?, hfound, Document.items?, names_of_shapes hread]

/-! ## Histories -/

/-- How a specification has been obtained. A clone is changed apart from what it was cloned from. -/
inductive History
  | new (id name : String)
  | parsed (d : Document) (file : Option Path)
  | settingsRole (h : History) (settingsName : String)
  | inPort (h : History) (p : DataPort)
  | outPort (h : History) (p : DataPort)
  | cloned (h : History)
  | changed (h : History) (change : ControlChange)

namespace History

/-- The specification that a history leads to. -/
def run : History → Except WorkerError Specification
  | new id name => .ok (.new id name)
  | parsed d file => Specification.parse d file
  | settingsRole h settingsName => h.run.map (·.withSettingsRole settingsName)
  | inPort h p => h.run.map (·.withInPort p)
  | outPort h p => h.run.map (·.withOutPort p)
  | cloned h => h.run
  | changed h change => h.run.map change.apply

/-- The names that the controls of a document at the beginning have, in order. -/
def written : History → List String
  | new _ _ => []
  | parsed d _ => writtenNames d
  | settingsRole h _ | inPort h _ | outPort h _ | cloned h | changed h _ => h.written

/-- How often a name has been removed. -/
def removals (name : String) : History → Nat
  | new _ _ | parsed _ _ => 0
  | settingsRole h _ | inPort h _ | outPort h _ | cloned h => h.removals name
  | changed h (.add _) => h.removals name
  | changed h (.remove other) => h.removals name + if other = name then 1 else 0

/-- An edit makes no name stand twice, and a removal takes one control of its name away. So how
often a name stands, if more than once, is how often it was written less the removals. -/
theorem count_le_iff {h : History} {s : Specification} (hrun : h.run = .ok s) (name : String)
    {k : Nat} (hk : 0 < k) :
    s.controlNames.count name ≤ k ↔ h.written.count name ≤ k + h.removals name := by
  induction h generalizing s k with
  | new id title =>
    cases hrun
    simp [controlNames, Specification.new, written]
  | parsed d file =>
    rw [controlNames_of_parse hrun]
    rfl
  | settingsRole h _ ih | inPort h _ ih | outPort h _ ih =>
    obtain ⟨before, hbefore, rfl⟩ := exists_of_map_eq_ok hrun
    exact ih (s := before) hbefore hk
  | cloned h ih => exact ih hrun hk
  | changed h change ih =>
    obtain ⟨before, hbefore, rfl⟩ := exists_of_map_eq_ok hrun
    cases change with
    | add control =>
      have hnames : (before.addControl control).controlNames =
          if control.name ∈ before.controlNames then before.controlNames
          else before.controlNames ++ [control.name] := names_putControl control before.controls
      have hsame : (before.addControl control).controlNames.count name ≤ k ↔
          before.controlNames.count name ≤ k := by
        rw [hnames]
        split
        · rfl
        · rename_i hnew
          by_cases hname : control.name = name
          · -- the name stood nowhere, and stands once now
            subst hname
            have hnone := List.count_eq_zero.2 hnew
            rw [List.count_append, List.count_singleton_self]
            omega
          · rw [List.count_append, List.count_singleton, if_neg (by simpa using hname)]
            rfl
      exact hsame.trans (ih hbefore hk)
    | remove other =>
      have hnames : (before.removeControl other).controlNames = before.controlNames.erase other :=
        names_dropControl other before.controls
      show (before.removeControl other).controlNames.count name ≤ k ↔
        h.written.count name ≤ k + (h.removals name + if other = name then 1 else 0)
      rw [hnames]
      by_cases hname : other = name
      · subst hname
        have hbelow := ih hbefore (Nat.succ_pos k)
        rw [List.count_erase_self, if_pos rfl]
        omega
      · rw [List.count_erase_of_ne (Ne.symm hname), if_neg hname]
        exact ih hbefore hk

/-- Two controls of a specification have one name exactly if its document repeats a name and the
copies have not all been removed. Where a name stands twice, removing it leaves a control of that
name, and adding one leaves another control of its name. -/
theorem distinct_names_iff {h : History} {s : Specification} (hrun : h.run = .ok s) :
    (s.controlNames.Nodup ↔ ∀ name, h.written.count name ≤ 1 + h.removals name) ∧
      (∀ name, (s.removeControl name).control? name = none ↔ s.controlNames.count name ≤ 1) ∧
      ∀ control, TakesPlace control s.controls (s.addControl control).controls ↔
        s.controlNames.count control.name ≤ 1 := by
  refine ⟨?_, s.control?_removeControl_eq_none_iff, ?_⟩
  · rw [List.nodup_iff_count_le_one]
    exact forall_congr' fun name => count_le_iff hrun name Nat.one_pos
  · intro control
    exact takesPlace_iff control s.controls

/-- A document with two controls of one name. -/
def repeating : Document :=
  .object [
    ("app", .string "executor"),
    ("id", .string "x"),
    ("controls", .array [
      .object [("name", .string "a"), ("value_type", .string "int")],
      .object [("name", .string "a"), ("value_type", .string "float")]])]

/-- The specification that this document describes. -/
def repeated : Specification where
  version := currentVersion
  id := "x"
  name := "x"
  controls := [⟨"a", "int", none, none, none, none⟩, ⟨"a", "float", none, none, none, none⟩]

/-- Once one of the two has been removed, the names are distinct. -/
theorem distinct_names_of_repeating :
    (changed (parsed repeating none) (.remove "a")).run = .ok (repeated.removeControl "a") ∧
      (repeated.removeControl "a").controlNames.Nodup ∧
      ((repeated.removeControl "a").removeControl "a").control? "a" = none ∧
      TakesPlace ⟨"a", "text", none, none, none, none⟩ (repeated.removeControl "a").controls
        ((repeated.removeControl "a").addControl
          ⟨"a", "text", none, none, none, none⟩).controls := by
  have hrun : (changed (parsed repeating none) (.remove "a")).run =
      .ok (repeated.removeControl "a") := rfl
  obtain ⟨hdistinct, hremove, hadd⟩ := distinct_names_iff hrun
  refine ⟨hrun, hdistinct.2 ?_, (hremove "a").2 (by decide), (hadd _).2 (by decide)⟩
  intro name
  show ["a", "a"].count name ≤ 1 + (0 + if "a" = name then 1 else 0)
  by_cases hname : "a" = name
  · subst hname
    decide
  · have hnone : ["a", "a"].count name = 0 := by simp [List.count_eq_zero, Ne.symm hname]
    omega

theorem name_stands_after_removal :
    (parsed repeating none).run = .ok repeated ∧ ¬repeated.controlNames.Nodup ∧
      (repeated.removeControl "a").control? "a" ≠ none := by
  refine ⟨rfl, by decide, ?_⟩
  rw [ne_eq, control?_removeControl_eq_none_iff]
  decide

end History

end Specification

end ExecutorHost
