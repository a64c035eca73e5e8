import ExecutorHost.Settings.Combiner

/-!
# Changes of controls

The controls of a registered specification may change later. A change leaves everything else about
the specification as it is, so that a combiner made from it stays one.
-/

namespace ExecutorHost

/-- A change of the controls of a specification. -/
inductive ControlChange
  /-- A control put in place of the one of its name, or at the end. -/
  | add (control : Control)
  /-- The control of a name removed. -/
  | remove (name : String)
deriving Repr

namespace ControlChange

/-- The specification after a change. -/
def apply (change : ControlChange) (s : Specification) : Specification :=
  match change with
  | .add control => s.addControl control
  | .remove name => s.removeControl name

/-- A change keeps the id. -/
@[simp] theorem id_apply (change : ControlChange) (s : Specification) :
    (change.apply s).id = s.id := by
  cases change <;> rfl

/-- A change keeps the name of the settings. -/
@[simp] theorem settingsName?_apply (change : ControlChange) (s : Specification) :
    (change.apply s).settingsName? = s.settingsName? := by
  cases change <;> rfl

end ControlChange

/-- The combiner after a change of its specification. -/
def Combiner.change (c : Combiner) (change : ControlChange) : Combiner :=
  ⟨change.apply c.specification, c.name, by rw [change.settingsName?_apply]; exact c.named⟩

end ExecutorHost
