import ExecutorHost.Extension.Error

/-!
# Platform folders

A platform may declare up to four folders. Each declared name is absolute or relative to the root of
the platform, which is the folder of its manifest. The root is kept as an absolute path, so what a
folder resolves to does not depend on the working folder later.
-/

namespace ExecutorHost

/-- The folders of a platform. -/
structure Folders where
  /-- Where specifications and mappings are. -/
  models : Option String := none
  /-- Where code modules are. -/
  modules : Option String := none
  /-- Where libraries are. -/
  libraries : Option String := none
  /-- Where other resources are. -/
  resources : Option String := none
  /-- The folder that relative names start from. -/
  root : Option Path := none
  /-- The folders are sealed. -/
  immutable : Bool := false
deriving DecidableEq, Repr, Inhabited

namespace Folders

/-- A root made absolute; the empty path, the parent of a bare file name, is the working folder. -/
def absoluteRoot (working root : Path) : Path :=
  if root.text.isEmpty then Path.absolute ⟨"."⟩ working else root.absolute working

/-- No declared folders, with a root. -/
def rooted (working : Path) (root : Option Path) : Folders :=
  { root := root.map (absoluteRoot working) }

/-- The declared name of a kind. -/
def declared (folders : Folders) : FolderKind → Option String
  | .models => folders.models
  | .modules => folders.modules
  | .libraries => folders.libraries
  | .resources => folders.resources

/-- The folders with a name declared for a kind. -/
def declare (folders : Folders) (name : String) : FolderKind → Folders
  | .models => { folders with models := some name }
  | .modules => { folders with modules := some name }
  | .libraries => { folders with libraries := some name }
  | .resources => { folders with resources := some name }

/-- The declared name that a member gives; an empty one is refused. -/
def parseName (object : Members) (kind : FolderKind) : Except ManifestFault (Option String) :=
  match Members.string? object kind.name with
  | .error e => .error (.field e)
  | .ok (some "") => .error (.emptyFolder kind)
  | .ok name => .ok name

/-- The folders that an object declares. -/
def parse (working : Path) (object : Members) (root : Option Path) :
    Except ManifestFault Folders := do
  let models ← parseName object .models
  let modules ← parseName object .modules
  let libraries ← parseName object .libraries
  let resources ← parseName object .resources
  return ⟨models, modules, libraries, resources, root.map (absoluteRoot working), false⟩

/-- Refuses a change of sealed folders. -/
def checkMutable (folders : Folders) : Except ExtensionError Unit :=
  if folders.immutable then .error (.immutableState .folders) else .ok ()

/-- The folders with another root. -/
def setRoot (working : Path) (folders : Folders) (root : Option Path) :
    Except ExtensionError Folders := do
  folders.checkMutable
  return { folders with root := root.map (absoluteRoot working) }

/-- The folders with another name for a kind; it must not be empty. -/
def setName (folders : Folders) (kind : FolderKind) (name : String) :
    Except ExtensionError Folders := do
  folders.checkMutable
  if name.isEmpty then .error (.emptyField kind.name)
  return folders.declare name kind

/-- A models folder is declared. -/
def hasModels (folders : Folders) : Bool := folders.models.isSome

/-- The absolute path of a name: itself if it is absolute, else continued from the root. -/
def resolve (folders : Folders) (name : String) : Except ExtensionError Path :=
  let path : Path := ⟨name⟩
  if path.isAbsolute then .ok path
  else match folders.root with
    | some root => .ok (root.join path)
    | none => .error (.relativeFolderWithoutRoot name)

/-- The absolute path of the folder of a kind, which must be declared. -/
def folder (folders : Folders) (kind : FolderKind) : Except ExtensionError Path :=
  match folders.declared kind with
  | some name => folders.resolve name
  | none => .error (.folderNotSpecified kind)

/-- The absolute path of the folder of a kind, if it is declared. -/
def folderIfDeclared (folders : Folders) (kind : FolderKind) :
    Except ExtensionError (Option Path) :=
  match folders.declared kind with
  | some name => (folders.resolve name).map some
  | none => .ok none

/-- The sealed folders. -/
def makeImmutable (folders : Folders) : Folders := { folders with immutable := true }

/-- The written form: the declared names. The root is never written. -/
def toMembers (folders : Folders) : Members :=
  FolderKind.all.filterMap fun kind =>
    (folders.declared kind).map fun name => (kind.name, .string name)

end Folders

end ExecutorHost
