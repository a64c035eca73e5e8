import ExecutorHost.Extension.Platform
import ExecutorHost.FileTree.Change

/-!
# Manifests

A manifest describes what an extension contributes: a version and a list of platforms. It is a
document with a marker, and it stands in a file of a fixed name in the folder of the extension.
-/

namespace ExecutorHost

/-- A manifest of an extension. -/
structure Manifest where
  /-- The file that the manifest was read from. -/
  file : Option Path := none
  /-- The version of the format. -/
  version : String
  /-- The platforms, in order. -/
  platforms : List Platform := []
deriving Repr, Inhabited

namespace Manifest

/-- The version of a manifest that gives none. -/
def currentVersion : String := "1.0"

/-- The name of the manifest file in an extension folder. -/
def fileName : String := "extension.json"

/-- A manifest without platforms. -/
def new : Manifest := { version := currentVersion }

/-- An object carries the manifest marker. -/
def isMarked (object : Members) : Bool :=
  (Members.get? object "app").bind Document.string? == some manifestApp

/-- A document is an object that carries the manifest marker. -/
def isManifest (d : Document) : Bool :=
  match d with
  | .object object => isMarked object
  | _ => false

/-- The version and the platform objects of a manifest document. -/
def parseFrame (d : Document) : Except ManifestFault (String × List Members) := do
  match d with
  | .object object =>
    if !isMarked object then .error .notManifest
    let version ← (Members.string? object "version").mapError .field
    let platforms ← (Members.objects object "platforms").mapError .field
    return (version.getD currentVersion, platforms)
  | _ => .error .notManifest

/--
The manifest that a document describes. The file is where relative folder names start from, and it
is named in errors.
-/
def parse (working : Path) (d : Document) (file : Option Path) :
    Generating ExtensionError Manifest := do
  let (version, objects) ← MonadExcept.ofExcept ((parseFrame d).mapError (.format file))
  let platforms ← objects.mapM fun object => Platform.parse working object file
  return ⟨file, version, platforms⟩

/-- The manifest that a document describes, or nothing if the document is not marked as one. -/
def parseIfRecognized (working : Path) (d : Document) (file : Option Path) :
    Generating ExtensionError (Option Manifest) := do
  if isManifest d then return some (← parse working d file) else return none

/-- The document that a text of a manifest writes. -/
def readText (text : String) (file : Option Path) : Except ExtensionError Document :=
  (Document.ofText text).mapError (.unreadable file)

/-- The manifest that a text describes. -/
def ofText (working : Path) (text : String) : Generating ExtensionError Manifest := do
  parse working (← MonadExcept.ofExcept (readText text none)) none

/-- The written form. -/
def toDocument (m : Manifest) : Document :=
  .object [
    ("app", .string manifestApp),
    ("version", .string m.version),
    ("platforms", .array (m.platforms.map fun p => .object p.toMembers))]

/-! ## Files -/

/-- The document that a file holds. -/
def readFile (tree : FileTree) (path : Path) : Except ExtensionError Document := do
  readText (← (tree.readText path).mapError (.io path)) (some path)

/-- The manifest that a file holds. -/
def loadFile (tree : FileTree) (path : Path) : Logged ExtensionError Manifest := do
  let document ← MonadExcept.ofExcept (readFile tree path)
  let manifest ← Logged.reportingError (fun e => .manifestLoadFailed path.text e.message) <|
    Logged.generating (parse tree.working document (some path))
  Logged.report (.manifestLoaded path.text manifest.platforms.length)
  return manifest

/-- The manifest that a file holds, or nothing if its document is not marked as one. -/
def loadFileIfRecognized (tree : FileTree) (path : Path) :
    Logged ExtensionError (Option Manifest) := do
  let document ← MonadExcept.ofExcept (readFile tree path)
  if !isManifest document then Logged.report (.manifestSkipped path.text)
  Logged.generating (parseIfRecognized tree.working document (some path))

/-- The absolute path of the manifest file in a folder. -/
def fileIn (working folder : Path) : Path := (folder.child fileName).absolute working

/-- A folder directly holds a manifest file. -/
def isExtensionFolder (tree : FileTree) (folder : Path) : Bool :=
  tree.isFolder folder && tree.contains (fileIn tree.working folder)

/-- The manifest of an extension folder. -/
def loadFolder (tree : FileTree) (folder : Path) : Logged ExtensionError Manifest := do
  if !tree.isFolder folder then throw (.folderNotFound folder)
  let file := fileIn tree.working folder
  if !tree.contains file then throw (.fileNotFound file folder)
  loadFile tree file

/--
All folders at or below a root that directly hold a manifest file, in the order of paths. A link to
a folder counts as a folder, but what lies behind it is not looked at.
-/
def discoverFolders (tree : FileTree) (root : Path) : Logged ExtensionError (List Path) := do
  let visits ← MonadExcept.ofExcept ((tree.walk root).mapError (.io root))
  let folders := (visits.map (·.path)).filter (isExtensionFolder tree)
  Logged.report (.extensionFoldersDiscovered root.text folders.length)
  return folders.mergeSort Path.le

/-- The tree with the manifest written to a file, in the pretty form. -/
def write (m : Manifest) (tree : FileTree) (path : Path) : Except ExtensionError FileTree :=
  (tree.write path (FileTree.bytesOf m.toDocument.prettyText)).mapError (.io path)

end Manifest

end ExecutorHost
