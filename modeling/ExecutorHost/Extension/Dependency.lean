import ExecutorHost.Extension.Error

/-!
# Dependencies

Another platform that a platform relies on. A dependency is sealed together with its platform.
-/

namespace ExecutorHost

/-- A dependency of a platform on another one. -/
structure Dependency where
  /-- The id of the other platform. -/
  id : String
  /-- A name to show. -/
  name : Option String := none
  /-- What the dependency is for. -/
  description : Option String := none
  /-- The dependency is sealed. -/
  immutable : Bool := false
deriving DecidableEq, Repr, Inhabited

namespace Dependency

/-- The dependency that an object describes. -/
def parse (object : Members) : Except FieldError Dependency := do
  let id ← Members.string object "id"
  let name ← Members.string? object "name"
  let description ← Members.string? object "description"
  return ⟨id, name, description, false⟩

/-- A change, refused if the dependency is sealed. -/
def change (d : Dependency) (f : Dependency → Dependency) : Except ExtensionError Dependency :=
  if d.immutable then .error (.immutableState .dependency) else .ok (f d)

/-- The dependency with another id. -/
def setId (d : Dependency) (id : String) : Except ExtensionError Dependency :=
  d.change fun d => { d with id }

/-- The dependency with another name. -/
def setName (d : Dependency) (name : Option String) : Except ExtensionError Dependency :=
  d.change fun d => { d with name }

/-- The dependency with another description. -/
def setDescription (d : Dependency) (description : Option String) :
    Except ExtensionError Dependency :=
  d.change fun d => { d with description }

/-- The sealed dependency. -/
def makeImmutable (d : Dependency) : Dependency := { d with immutable := true }

/-- The written form. -/
def toMembers (d : Dependency) : Members :=
  let withName := Members.putOptional [("id", .string d.id)] "name" (d.name.map .string)
  Members.putOptional withName "description" (d.description.map .string)

end Dependency

end ExecutorHost
