import ExecutorHost.Settings.Combiner

/-!
# Combining settings

Settings are made from parameters control by control. A plain control takes its parameter, or its
default if that is absent or null; a sub-settings control takes the settings that the combiner
behind it makes from the object among the parameters. A document is combined with parameters by
putting it on top of the settings that they make. Where it has an object for a sub-settings control,
that object is combined in turn. Both stop at the first reference that does not resolve or closes a
circle.

What is done with the controls of one level does not depend on how the level below is reached. It is
defined for any monad, and references close it into a recursion.
-/

namespace ExecutorHost

namespace Control

/-- The value of a plain control: its parameter unless that is null, or else its default. -/
def plainValue (control : Control) (parameters : Members) : Option Document :=
  match Members.get? parameters control.name with
  | some .null => control.default
  | some value => some value
  | none => control.default

end Control

/-! ## One level -/

namespace Controls

variable {m : Type → Type} [Monad m]

/--
The settings that a list of controls makes from parameters, put into those made so far. What a
sub-settings control refers to is made from its own parameters by what is done below.
-/
def make (below : Control → Members → m Members) (parameters : Members) :
    List Control → Members → m Members
  | [], settings => return settings
  | control :: rest, settings =>
    if control.isSubSettings then do
      let inner ← below control (Members.objectAt parameters control.name)
      make below parameters rest (Members.put settings control.name (.object inner))
    else
      make below parameters rest
        (Members.putOptional settings control.name (control.plainValue parameters))

/--
Settings with the sub-settings of a document worked in, for a list of controls: where the document
has an object for a sub-settings control, that object is combined with the parameters there by what
is done below.
-/
def refine (below : Control → Members → Members → m Members) (parameters document : Members) :
    List Control → Members → m Members
  | [], settings => return settings
  | control :: rest, settings =>
    match Members.get? document control.name, control.isSubSettings with
    | some (.object upper), true => do
      let merged ← below control (Members.objectAt parameters control.name) upper
      refine below parameters document rest (Members.put settings control.name (.object merged))
    | _, _ => refine below parameters document rest settings

end Controls

/-! ## All levels -/

namespace References

/--
The settings that a list of controls makes from parameters, put into those made so far, for settings
that are reached by a way through the given ids. Each step down uses up a registered combiner.
-/
def make (references : References) (way : List String) (parameters : Members)
    (controls : List Control) (settings : Members) : Except SettingsError Members :=
  Controls.make
    (fun control own =>
      match _h : references.descend way control with
      | .error e => .error e
      | .ok sub => make references (way ++ [sub.id]) own sub.controls [])
    parameters controls settings
termination_by references.ahead way
decreasing_by exact ahead_lt_of_descend (by assumption)

/--
Settings with the sub-settings of a document worked in, for a list of controls: what the document
has for sub-settings is put on top of the settings that the parameters make there, and worked in
again.
-/
def refine (references : References) (way : List String) (parameters document : Members)
    (controls : List Control) (settings : Members) : Except SettingsError Members :=
  Controls.refine
    (fun control own upper =>
      match _h : references.descend way control with
      | .error e => .error e
      | .ok sub => do
        let made ← references.make (way ++ [sub.id]) own sub.controls []
        refine references (way ++ [sub.id]) own upper sub.controls (Members.overlay made upper))
    parameters document controls settings
termination_by references.ahead way
decreasing_by exact ahead_lt_of_descend (by assumption)

/-- A document combined with the settings that the parameters make, at the end of a way. -/
def combineAt (references : References) (way : List String) (c : Combiner)
    (parameters document : Members) : Except SettingsError Members := do
  let made ← references.make way parameters c.controls []
  references.refine way parameters document c.controls (Members.overlay made document)

/-! ## One control -/

section OneControl

variable {references : References} {way : List String} {parameters document settings : Members}
  {control : Control} {e : SettingsError} {sub : Combiner}

theorem make_nil : references.make way parameters [] settings = .ok settings := by
  rw [make]
  rfl

theorem make_plain (hplain : ¬control.isSubSettings = true) (rest : List Control) :
    references.make way parameters (control :: rest) settings =
      references.make way parameters rest
        (Members.putOptional settings control.name (control.plainValue parameters)) := by
  rw [make, Controls.make, if_neg hplain, make]

theorem make_stops (hsub : control.isSubSettings = true)
    (hd : references.descend way control = .error e) (rest : List Control) :
    references.make way parameters (control :: rest) settings = .error e := by
  rw [make, Controls.make, if_pos hsub]
  split
  · rename_i e' he
    cases he.symm.trans hd
    rfl
  · rename_i sub' he
    cases he.symm.trans hd

theorem make_nested (hsub : control.isSubSettings = true)
    (hd : references.descend way control = .ok sub) (rest : List Control) :
    references.make way parameters (control :: rest) settings =
      (references.make (way ++ [sub.id]) (Members.objectAt parameters control.name)
        sub.controls []).bind fun inner =>
          references.make way parameters rest
            (Members.put settings control.name (.object inner)) := by
  rw [make, Controls.make, if_pos hsub]
  split
  · rename_i e' he
    cases he.symm.trans hd
  · rename_i sub' he
    cases he.symm.trans hd
    refine bind_congr fun inner => ?_
    rw [make]

theorem refine_nil : references.refine way parameters document [] settings = .ok settings := by
  rw [refine]
  rfl

theorem refine_other
    (hother : ∀ upper, Members.get? document control.name = some (.object upper) →
      ¬control.isSubSettings = true) (rest : List Control) :
    references.refine way parameters document (control :: rest) settings =
      references.refine way parameters document rest settings := by
  rw [refine, Controls.refine]
  split
  · rename_i upper hget hsub
    exact absurd hsub (hother upper hget)
  · rw [refine]

theorem refine_nested {upper : Members}
    (hget : Members.get? document control.name = some (.object upper))
    (hsub : control.isSubSettings = true) (hd : references.descend way control = .ok sub)
    (rest : List Control) :
    references.refine way parameters document (control :: rest) settings =
      (references.combineAt (way ++ [sub.id]) sub (Members.objectAt parameters control.name)
        upper).bind fun merged =>
          references.refine way parameters document rest
            (Members.put settings control.name (.object merged)) := by
  rw [refine, Controls.refine, hget, hsub]
  simp only
  split
  · rename_i e' he
    cases he.symm.trans hd
  · rename_i sub' he
    cases he.symm.trans hd
    refine bind_congr fun merged => ?_
    rw [refine]

end OneControl

end References

namespace Combiner

/-- The settings made from parameters. -/
def create (combiner : Combiner) (references : References) (parameters : Members) :
    Except SettingsError Members :=
  references.make [combiner.id] parameters combiner.controls []

/-- The settings made from the defaults alone. -/
def defaults (combiner : Combiner) (references : References) : Except SettingsError Members :=
  combiner.create references []

/-- A document put on top of the settings made from parameters, at every level. -/
def combine (combiner : Combiner) (references : References) (parameters document : Members) :
    Except SettingsError Members :=
  references.combineAt [combiner.id] combiner parameters document

end Combiner

end ExecutorHost
