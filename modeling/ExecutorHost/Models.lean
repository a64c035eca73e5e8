import ExecutorHost.FileTree.Walk
import ExecutorHost.Mapping.Specification
import ExecutorHost.Text.Case
import ExecutorHost.Worker.Loader

/-!
# Models folders

A models folder holds documents of executors and of mappings, at any depth. Reading one kind passes
over documents of the other kind; the first document that cannot be read fails the whole folder, and
only when all have been read do they enter their loader, in the order of the walk.
-/

namespace ExecutorHost.Models

variable {α σ : Type}

/--
Every allowed file at a path read, in the order of the walk: the path itself if it leads to a file,
or the files in a folder, with those at any depth if `recursive` is set. Files behind links are
read, folders behind links are not looked into. The reader may decline a file. A path that leads
nowhere has no files.
-/
def readAll (tree : FileTree) (path : Path) (recursive : Bool) (allowed : Path → Bool)
    (reader : Path → Logged WorkerError (Option α)) : Logged WorkerError (List α) := do
  if !tree.contains path then return []
  let visits ← MonadExcept.ofExcept ((tree.walk path).mapError (.io path))
  let files := visits.filter fun visit =>
    (recursive || visit.depth ≤ 1) && tree.isFile visit.path && allowed visit.path
  return (← files.mapM fun visit => reader visit.path).filterMap id

/-- The extension of the names of document files. -/
def documentExtension : String := "json"

/-- A path has the name of a document file, in letters of any case. -/
def isDocumentFile (path : Path) : Bool :=
  path.extension?.any (Text.sameIgnoringCase · documentExtension)

theorem isDocumentFile_iff (path : Path) :
    isDocumentFile path = true ↔ ∃ ending, path.extension? = some ending ∧
      ending.toList.map Char.toLower = ['j', 's', 'o', 'n'] := by
  have hlower : documentExtension.toList.map Char.toLower = ['j', 's', 'o', 'n'] := by decide
  simp only [isDocumentFile, Option.any_eq_true, Text.sameIgnoringCase, hlower, beq_iff_eq]

/-- Every document file at a path read, at any depth. -/
def readDocuments (tree : FileTree) (path : Path)
    (reader : Path → Logged WorkerError (Option α)) : Logged WorkerError (List α) :=
  readAll tree path true isDocumentFile reader

/-- What reading a specification reports. -/
def specificationEvents (file : Path) : Except WorkerError (Option Specification) → List Event
  | .ok (some _) => []
  | .ok none => [.specificationSkipped file.text]
  | .error e => [.specificationLoadFailed file.text e.message]

/-- What reading a mapping reports. -/
def mappingEvents (file : Path) : Except WorkerError (Option Mapping) → List Event
  | .ok _ => []
  | .error e => [.mappingLoadFailed file.text e.message]

/-- A result handed on after it has been reported. -/
def reporting (events : Except WorkerError α → List Event) (result : Except WorkerError α) :
    Logged WorkerError α := do
  (events result).forM Logged.report
  MonadExcept.ofExcept result

/-- The executor specifications of a folder. -/
def readSpecifications (tree : FileTree) (folder : Path) :
    Logged WorkerError (List Specification) :=
  readDocuments tree folder fun file =>
    reporting (specificationEvents file) (Specification.loadFileIfRecognized tree file)

/-- The mappings of a folder. -/
def readMappings (tree : FileTree) (folder : Path) : Logged WorkerError (List Mapping) :=
  readDocuments tree folder fun file =>
    reporting (mappingEvents file) (Mapping.loadFileIfRecognized tree file)

/-- What has been read entered one after another, and then reported; the number of entries. -/
def enterAll (read : Logged WorkerError (List α)) (enter : σ → α → Logged WorkerError σ)
    (event : Nat → Event) (state : σ) : Logged WorkerError (σ × Nat) := do
  let items ← read
  let state ← items.foldlM enter state
  Logged.report (event items.length)
  return (state, items.length)

/-- The executor specifications of a folder entered under their ids. -/
def loadSpecifications (tree : FileTree) (folder : Path)
    (enter : σ → Specification → Logged WorkerError σ) (state : σ) :
    Logged WorkerError (σ × Nat) :=
  enterAll (readSpecifications tree folder) enter (.specificationsLoaded folder.text) state

/-- The mappings of a folder entered under their ids. -/
def loadMappings (tree : FileTree) (folder : Path) (mappings : Loader Mapping) :
    Logged WorkerError (Loader Mapping × Nat) :=
  enterAll (readMappings tree folder) (fun loader m => loader.register m.id m)
    (.mappingsLoaded folder.text) mappings

end ExecutorHost.Models
