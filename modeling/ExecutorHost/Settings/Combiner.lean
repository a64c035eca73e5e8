import ExecutorHost.Executor.Specification
import ExecutorHost.Settings.Error
import ExecutorHost.Worker.Loader

/-!
# Settings combiners

A combiner is a settings specification at work. A sub-settings control refers to another combiner:
by its id if the control gives one, and else by the name of the settings, which is the name of the
control. Following references keeps the ids on the way, so that a reference back to one of them is
found to close a circle. Each step of the way uses up one of the ids that the registered combiners
have, and so every way ends.
-/

namespace ExecutorHost

/-- A settings specification with the name of its settings. -/
structure Combiner where
  /-- The specification. -/
  specification : Specification
  /-- The name of the settings. -/
  name : String
  /-- The specification describes settings of that name. -/
  named : specification.settingsName? = some name
deriving Repr

/-- Combiners under their ids. -/
abbrev Combiners := Loader Combiner

namespace Combiner

/-- The combiner of a specification, which must describe settings. -/
def ofSpecification (s : Specification) : Except SettingsError Combiner :=
  match h : s.settingsName? with
  | some name => .ok ⟨s, name, h⟩
  | none => .error (.notSettings s.id)

/-- The id of the specification. -/
def id (c : Combiner) : String := c.specification.id

/-- The controls of the specification. -/
def controls (c : Combiner) : List Control := c.specification.controls

/-- What making a combiner reports. -/
def createdEvent (c : Combiner) : Event :=
  .settingsCombinerCreated c.id c.name c.controls.length

/-- The combiners of all settings specifications of a loader, under the same ids. -/
def allOf (specifications : Loader Specification) : List (String × Combiner) :=
  specifications.entries.filterMap fun (id, s) =>
    match ofSpecification s with
    | .ok c => some (id, c)
    | .error _ => none

/--
Workers that show a combiner registered one after another, each reported as made and as registered.
-/
def registerEach {ε ω : Type} (view : ω → Combiner) (loader : Loader ω) :
    List (String × ω) → Logged ε (Loader ω)
  | [] => return loader
  | (id, worker) :: rest => do
    Logged.report (view worker).createdEvent
    registerEach view (← loader.register id worker) rest

/-- The combiners with one for every settings specification of a loader, and their number. -/
def registerAll {ε : Type} (specifications : Loader Specification) (combiners : Combiners) :
    Logged ε (Combiners × Nat) := do
  let made := allOf specifications
  return (← registerEach (fun c => c) combiners made, made.length)

end Combiner

namespace Control

/-- What a sub-settings control refers to: an id, or else the name of the control. -/
def target (c : Control) : String := c.settingsId.getD c.name

end Control

/-- A way of looking up what sub-settings controls refer to, among some combiners. -/
@[ext]
structure References where
  /-- The combiner that a sub-settings control refers to, if there is one. -/
  referenced? : Control → Option Combiner
  /-- All combiners that there are. -/
  registered : List Combiner
  /-- A reference leads to one of them. -/
  mem_registered : ∀ {control sub}, referenced? control = some sub → sub ∈ registered

namespace Combiners

/-- The combiner that a sub-settings control refers to, if it is registered. -/
def referenced? (combiners : Combiners) (control : Control) : Option Combiner :=
  match control.settingsId with
  | some id => combiners.get? id
  | none => (combiners.find? (·.name == control.name)).map (·.2)

/-- A reference leads to a registered combiner. -/
theorem mem_values_of_referenced? {combiners : Combiners} {control : Control} {sub : Combiner}
    (h : combiners.referenced? control = some sub) : sub ∈ combiners.values := by
  unfold referenced? at h
  split at h
  · exact IdMap.mem_values_of_get? h
  · obtain ⟨e, he, rfl⟩ := Option.map_eq_some_iff.1 h
    exact IdMap.mem_values_of_find? he

/-- The references among registered combiners. -/
def references (combiners : Combiners) : References where
  referenced? := combiners.referenced?
  registered := combiners.values
  mem_registered := mem_values_of_referenced?

instance : Coe Combiners References := ⟨references⟩

end Combiners

namespace References

/-- The combiner that a sub-settings control refers to. -/
def resolve (references : References) (control : Control) : Except SettingsError Combiner :=
  match references.referenced? control with
  | some c => .ok c
  | none => .error (.subSettingsNotFound control.name control.target)

/-- The ids on the way from the first visit of an id on, and the id again. -/
def circle (way : List String) (id : String) : List String := way.dropWhile (· ≠ id) ++ [id]

/-- The combiner that a reference leads to, unless it is on the way already. -/
def descend (references : References) (way : List String) (control : Control) :
    Except SettingsError Combiner :=
  match references.resolve control with
  | .error e => .error e
  | .ok sub => if sub.id ∈ way then .error (.cycle (circle way sub.id)) else .ok sub

/-- How many registered combiners have an id that is not on the way yet. -/
def ahead (references : References) (way : List String) : Nat :=
  references.registered.countP fun c => c.id ∉ way

/-- A descent leads to a registered combiner whose id is not on the way. -/
theorem of_descend {references : References} {way : List String} {control : Control}
    {sub : Combiner} (h : references.descend way control = .ok sub) :
    references.referenced? control = some sub ∧ sub.id ∉ way := by
  unfold descend resolve at h
  cases hr : references.referenced? control with
  | none => simp [hr] at h
  | some c =>
    by_cases hc : c.id ∈ way
    · simp [hr, hc] at h
    · simp only [hr, hc, if_false, Except.ok.injEq] at h
      exact ⟨by rw [h], h ▸ hc⟩

/-- A descent uses up a combiner ahead. -/
theorem ahead_lt_of_descend {references : References} {way : List String} {control : Control}
    {sub : Combiner} (h : references.descend way control = .ok sub) :
    references.ahead (way ++ [sub.id]) < references.ahead way := by
  obtain ⟨href, hnot⟩ := of_descend h
  have hmem := references.mem_registered href
  unfold ahead
  generalize references.registered = values at hmem
  have hle : ∀ rest : List Combiner,
      (rest.countP fun c => c.id ∉ way ++ [sub.id]) ≤ rest.countP fun c => c.id ∉ way := by
    intro rest
    refine List.countP_mono_left fun c _ hc => ?_
    simp only [List.mem_append, not_or, decide_eq_true_eq] at hc ⊢
    exact hc.1
  induction values with
  | nil => simp at hmem
  | cons c rest ih =>
    rw [List.countP_cons, List.countP_cons]
    have := hle rest
    rcases List.mem_cons.1 hmem with rfl | hmem
    · simp only [List.mem_append, List.mem_singleton, or_true, not_true_eq_false, decide_false,
        hnot, not_false_eq_true, decide_true, if_true]
      simp only [List.mem_append, List.mem_singleton] at this
      simp only [Bool.false_eq_true, if_false]
      omega
    · have hlt := ih hmem
      have hstep : (if decide (c.id ∉ way ++ [sub.id]) = true then 1 else 0) ≤
          if decide (c.id ∉ way) = true then 1 else 0 := by
        by_cases hc : c.id ∈ way <;> simp [hc]
        split <;> omega
      omega

end References

/-- The registered combiner that a sub-settings control refers to. -/
def Combiners.resolve (combiners : Combiners) (control : Control) :
    Except SettingsError Combiner :=
  combiners.references.resolve control

end ExecutorHost
