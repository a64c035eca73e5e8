import ExecutorHost.Mapping.Specification
import ExecutorHost.Worker.Slot

/-!
# Mapping executors

An executor that makes the mapping document of one mapping from parameters. It keeps its own copy of
the mapping in a slot, taken at its first run.
-/

namespace ExecutorHost

/-- What a mapping executor puts out. -/
structure MappingOutput where
  /-- The mapping document, in the pretty form. -/
  mapping : String
  /-- The keys of the document, one a line. -/
  keys : String
deriving DecidableEq, Repr

/-- The output of a mapping for parameters. -/
def MappingOutput.ofParameters (m : Mapping) (parameters : Members) : MappingOutput :=
  let document := m.create parameters
  ⟨(Document.object document).prettyText, "\n".intercalate (Members.keys document)⟩

/-- A run of a mapping executor: its output and its slot afterwards. -/
def runMapping (slot : Slot Mapping) (mappings : Loader Mapping) (parameters : Members) :
    Logged WorkerError (MappingOutput × Slot Mapping) := do
  let (mapping, slot) ← slot.take mappings
  return (.ofParameters mapping parameters, slot)

end ExecutorHost
