import ExecutorHost.Document.Field
import ExecutorHost.Document.Reader
import ExecutorHost.FileTree.Basic
import ExecutorHost.Text.Debug

/-!
# Errors of extensions

Why a manifest, a platform or the platform registry refuses something. Each constructor is a cause;
the wording is in one place.
-/

namespace ExecutorHost

/-- The kinds of folder that a platform may declare. -/
inductive FolderKind
  /-- Executor specifications and mappings. -/
  | models
  /-- Code modules. -/
  | modules
  /-- Libraries. -/
  | libraries
  /-- Other resources. -/
  | resources
deriving DecidableEq, Repr

namespace FolderKind

/-- The kind's name in documents and messages. -/
def name : FolderKind → String
  | .models => "models"
  | .modules => "modules"
  | .libraries => "libraries"
  | .resources => "resources"

/-- All kinds, in the order in which they are read and written. -/
def all : List FolderKind := [.models, .modules, .libraries, .resources]

end FolderKind

/-- The parts of a platform that can be sealed against changes. -/
inductive Sealable
  /-- The platform itself. -/
  | platform
  /-- Its folders. -/
  | folders
  /-- One of its dependencies. -/
  | dependency
deriving DecidableEq, Repr

/-- The part in words. -/
def Sealable.phrase : Sealable → String
  | .platform => "This platform"
  | .folders => "The platform folders"
  | .dependency => "The platform dependency"

/-- The marker that tells a manifest from other documents. -/
def manifestApp : String := "executors-extension"

/-- What is wrong with the form of a manifest document. -/
inductive ManifestFault
  /-- The document does not carry the manifest marker. -/
  | notManifest
  /-- A member has the wrong type or is missing. -/
  | field (error : FieldError)
  /-- The technology of a platform is empty. -/
  | emptyTechnology
  /-- A declared folder name is empty. -/
  | emptyFolder (kind : FolderKind)
deriving Repr

/-- The wording of a manifest fault. -/
def ManifestFault.message : ManifestFault → String
  | .notManifest => s!"not an extension manifest: no \"app\":\"{manifestApp}\" element"
  | .field error => error.message
  | .emptyTechnology => "\"technology\" must not be empty"
  | .emptyFolder kind => s!"\"folders\" member \"{kind.name}\" must not be empty"

/-- Why an operation on extensions fails. -/
inductive ExtensionError
  /-- A document is not a well-formed manifest. -/
  | format (file : Option Path) (fault : ManifestFault)
  /-- A text is no document at all. -/
  | unreadable (file : Option Path) (fault : Document.Fault)
  /-- A value that must not be empty is. -/
  | emptyField (name : String)
  /-- An extension folder is not there. -/
  | folderNotFound (folder : Path)
  /-- An extension folder holds no manifest. -/
  | fileNotFound (file folder : Path)
  /-- A relative folder has no root to start from. -/
  | relativeFolderWithoutRoot (folder : String)
  /-- A folder is not declared. -/
  | folderNotSpecified (kind : FolderKind)
  /-- A resource path that must exist does not. -/
  | missingResourcePath (file : Option Path) (path : Path) (classpath : List String)
  /-- A sealed part was to be changed. -/
  | immutableState (part : Sealable)
  /-- No platform has this id. -/
  | platformNotRegistered (id : String)
  /-- Two platforms have one id. -/
  | duplicatePlatformId (id : String) (file : Option Path)
  /-- The file tree refused an access. -/
  | io (path : Path) (fault : IoFault)
deriving Repr

namespace ExtensionError

/-- The wording of an error; what a text or a file tree had to say about it is left out. -/
def message : ExtensionError → String
  | .format file fault => s!"Invalid JSON{inFile file}: {fault.message}"
  | .unreadable file _ => s!"Cannot parse JSON{inFile file}"
  | .emptyField name => s!"Empty \"{name}\" value is not allowed"
  | .folderNotFound folder => s!"Extension folder \"{folder.text}\" is not an existing directory"
  | .fileNotFound file folder =>
    s!"Extension file \"{file.text}\" does not exist in {folder.text}"
  | .relativeFolderWithoutRoot folder =>
    s!"The folder \"{folder}\" is relative and cannot be resolved, because the platform root " ++
      "folder is not specified; it is probable when an extension JSON was not loaded from a " ++
      "usual .json-file. You must use absolute paths in this case."
  | .folderNotSpecified kind => s!"Folder \"{kind.name}\" is not specified in this platform"
  | .missingResourcePath file path classpath =>
    s!"Invalid classpath{inFile file}: it contains non-existing path \"{path.text}\" " ++
      s!"in the full paths list {Text.Debug.showList classpath}"
  | .immutableState part => s!"{part.phrase} is immutable and cannot be changed"
  | .platformNotRegistered id => s!"Platform \"{id}\" is not registered"
  | .duplicatePlatformId id file => s!"Duplicate platform id \"{id}\"{inFile file}"
  | .io path _ => s!"I/O error at {path.text}"

/-- The error says that something looked for is not there. -/
def isNotFound : ExtensionError → Bool
  | .folderNotFound _ | .fileNotFound .. | .platformNotRegistered _ => true
  | _ => false

end ExtensionError

end ExecutorHost
