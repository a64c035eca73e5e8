import ExecutorHost.Settings.Combine

/-!
# Splitting settings

Splitting writes the values of a document back into parameters, control by control, and goes down
where the document has an object for a sub-settings control. If a reference fails on the way, what
has been written by then stays written. After that the document is combined with the new parameters.
-/

namespace ExecutorHost

/-- The parameters after a splitting and how it ended. -/
structure SplitResult (α : Type) where
  /-- The parameters after the call, also after an error. -/
  parameters : Members
  /-- The result. -/
  result : Except SettingsError α
deriving Inhabited

namespace SplitResult

/-- The parameters with an object under a key: the one that is there, or else an empty one. -/
def openObject (parameters : Members) (key : String) : Members :=
  match Members.get? parameters key with
  | some (.object _) => parameters
  | _ => Members.put parameters key (.object [])

end SplitResult

namespace Controls

variable {m : Type → Type} [Monad m]

/--
The values of a document written into parameters for a list of controls. Where the document has an
object for a sub-settings control, that object is written into the parameters there by what is done
below, unless the reference of the control cannot be followed.
-/
def write (below : Control → Members → Members → m (Except SettingsError (SplitResult Unit)))
    (document : Members) : List Control → Members → m (SplitResult Unit)
  | [], parameters => return ⟨parameters, .ok ()⟩
  | control :: rest, parameters =>
    match Members.get? document control.name, control.isSubSettings with
    | none, _ => write below document rest parameters
    | some (.object upper), true => do
      let opened := SplitResult.openObject parameters control.name
      match ← below control upper (Members.objectAt opened control.name) with
      | .error e => return ⟨opened, .error e⟩
      | .ok ⟨inner, .error e⟩ =>
        return ⟨Members.put opened control.name (.object inner), .error e⟩
      | .ok ⟨inner, .ok ()⟩ =>
        write below document rest (Members.put opened control.name (.object inner))
    | some value, _ => write below document rest (Members.put parameters control.name value)

end Controls

namespace References

/--
The values of a document written into parameters for a list of controls, for settings that are
reached by a way through the given ids.
-/
def writeBack (references : References) (way : List String) (document : Members)
    (controls : List Control) (parameters : Members) : SplitResult Unit :=
  Controls.write (m := Id)
    (fun control upper own =>
      match _h : references.descend way control with
      | .error e => .error e
      | .ok sub => .ok (writeBack references (way ++ [sub.id]) upper sub.controls own))
    document controls parameters
termination_by references.ahead way
decreasing_by exact ahead_lt_of_descend (by assumption)

end References

/-- The document written into the parameters, and then combined with them. -/
def Combiner.split (combiner : Combiner) (references : References) (parameters document : Members) :
    SplitResult Members :=
  let written := references.writeBack [combiner.id] document combiner.controls parameters
  match written.result with
  | .error e => ⟨written.parameters, .error e⟩
  | .ok () => ⟨written.parameters, combiner.combine references written.parameters document⟩

end ExecutorHost
