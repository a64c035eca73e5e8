import Std.Data.HashMap
import ExecutorHost.Extension.Manifest

/-!
# Platform registry

The platforms that a host knows, in the order of their registration, with an index from ids to
positions. A manifest enters as a whole or not at all, and every platform is sealed when it enters.
-/

namespace ExecutorHost

/-- The registered platforms. -/
structure Registry where
  /-- The platforms, in the order of registration. -/
  ordered : Array Platform := #[]
  /-- The position of each id. -/
  positions : Std.HashMap String Nat := ∅

namespace Registry

/-- No platforms. -/
def empty : Registry := {}

/-- The platforms, in the order of registration. -/
def platforms (r : Registry) : List Platform := r.ordered.toList

/-- The number of platforms. -/
def size (r : Registry) : Nat := r.ordered.size

/-- An id is registered. -/
def contains (r : Registry) (id : String) : Bool := r.positions.contains id

/-- The platform of an id. -/
def get? (r : Registry) (id : String) : Option Platform := do
  r.ordered[← r.positions[id]?]?

/-- The platform of an id, which must be registered. -/
def require (r : Registry) (id : String) : Except ExtensionError Platform :=
  match r.get? id with
  | some p => .ok p
  | none => .error (.platformNotRegistered id)

/-- A platform sealed and put at the end. -/
def insert (r : Registry) (p : Platform) : Registry :=
  ⟨r.ordered.push p.makeImmutable, r.positions.insert p.id r.ordered.size⟩

/-- The first platform whose id is registered or stands before it in the list. -/
def firstDuplicate? (r : Registry) (before : List String) : List Platform → Option Platform
  | [] => none
  | p :: rest =>
    if p.id ∈ before ∨ r.contains p.id then some p else firstDuplicate? r (p.id :: before) rest

/-- The registry with all platforms of a list, or the first platform that clashes. -/
def addAll (r : Registry) (platforms : List Platform) : Except ExtensionError Registry :=
  match r.firstDuplicate? [] platforms with
  | some p => .error (.duplicatePlatformId p.id p.file)
  | none => .ok (platforms.foldl insert r)

/-- What registering a platform reports. -/
def registeredEvent (p : Platform) : Event := .platformRegistered p.id p.technology p.builtIn

/-- What a refused platform reports. -/
def refusedEvents : ExtensionError → List Event
  | .duplicatePlatformId id _ => [.duplicatePlatformId id]
  | _ => []

/-- The registry with all platforms of a list, or none of them; the new sealed platforms. -/
def register (r : Registry) (platforms : List Platform) :
    Logged ExtensionError (Registry × List Platform) := do
  match r.addAll platforms with
  | .ok r =>
    for p in platforms do Logged.report (registeredEvent p)
    return (r, platforms.map Platform.makeImmutable)
  | .error e =>
    for event in refusedEvents e do Logged.report event
    throw e

/-- The platforms of a technology, whatever the case of its letters. -/
def byTechnology (r : Registry) (technology : String) : List Platform :=
  r.platforms.filter fun p => Text.sameIgnoringCase p.technology technology

/-- The platforms that run inside the host. -/
def builtIn (r : Registry) : List Platform := r.platforms.filter (·.builtIn)

/-- The platforms that declare a models folder. -/
def withModels (r : Registry) : List Platform := r.platforms.filter (·.folders.hasModels)

/-- The models folders of all platforms that declare one. -/
def modelsFolders (r : Registry) : Except ExtensionError (List Path) :=
  r.withModels.mapM fun p => p.folders.folder .models

/-- Fails at the first platform whose resource paths must exist and do not. -/
def checkResourcePaths (r : Registry) (tree : FileTree) : Logged ExtensionError Unit := do
  for p in r.platforms do
    MonadExcept.ofExcept (p.checkResourcePaths tree)
    if p.configuration.requireExistingPaths then
      Logged.report (.resourcePathsChecked p.id p.configuration.classpath.length)

end Registry

end ExecutorHost
