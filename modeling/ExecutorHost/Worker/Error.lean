import ExecutorHost.Document.Reader
import ExecutorHost.Document.Shape
import ExecutorHost.FileTree.Basic

/-!
# Errors of workers

Why a worker is not found and why a specification or a mapping cannot be read.
-/

namespace ExecutorHost

/-- The marker of executor specifications. -/
def executorApp : String := "executor"

/-- The marker of mapping specifications. -/
def mappingApp : String := "mapping"

/-- What is wrong with a mapping specification. -/
inductive MappingFault
  /-- The document does not carry the marker of mappings. -/
  | notMapping
  /-- A key is empty. -/
  | emptyKey
  /-- A key stands twice. -/
  | repeatedKey (key : String)
deriving DecidableEq, Repr

/-- The wording of a mapping fault. -/
def MappingFault.message : MappingFault → String
  | .notMapping => s!"no \"app\":\"{mappingApp}\" element"
  | .emptyKey => "mapping keys must not be empty"
  | .repeatedKey key => s!"mapping key \"{key}\" is repeated"

/-- Why an operation on workers fails. -/
inductive WorkerError
  /-- No worker has this id. -/
  | notRegistered (id : String)
  /-- A document does not carry the marker of executor specifications. -/
  | notSpecification (file : Option Path)
  /-- A mapping specification is malformed. -/
  | mapping (file : Option Path) (fault : MappingFault)
  /-- A text is no document at all. -/
  | unreadable (file : Option Path) (fault : Document.Fault)
  /-- A document does not have the shape of its kind. -/
  | shape (file : Option Path) (fault : ShapeFault)
  /-- The file tree refused an access. -/
  | io (path : Path) (fault : IoFault)
deriving Repr

/-- The wording of an error; what a text or a file tree had to say about it is left out. -/
def WorkerError.message : WorkerError → String
  | .notRegistered id => s!"Executor \"{id}\" is not registered"
  | .notSpecification file =>
    s!"Invalid executor specification{inFile file}: no \"app\":\"{executorApp}\" element"
  | .mapping file fault => s!"Invalid mapping specification{inFile file}: {fault.message}"
  | .unreadable file _ => s!"Cannot parse specification JSON{inFile file}"
  | .shape file fault => s!"Cannot parse specification JSON{inFile file}: {fault.message}"
  | .io path _ => s!"I/O error at {path.text}"

/-- The document that a text of a specification writes. -/
def readSpecificationText (text : String) (file : Option Path) : Except WorkerError Document :=
  (Document.ofText text).mapError (.unreadable file)

/-- The document that a file holds. -/
def readSpecificationFile (tree : FileTree) (path : Path) : Except WorkerError Document := do
  readSpecificationText (← (tree.readText path).mapError (.io path)) (some path)

end ExecutorHost
