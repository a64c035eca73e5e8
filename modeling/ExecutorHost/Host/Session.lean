import ExecutorHost.Executor.Change
import ExecutorHost.Host.Basic
import ExecutorHost.Mapping.Executor
import ExecutorHost.Settings.Executor

/-!
# Sessions

A session is a host at work: workers come and go, executors run, and the controls of a registered
specification may change. Every registration of a specification gets a serial number. A combiner
made from the specification keeps the number, and so does the private copy of an executor; a change
of the specification reaches everything that has its number.
-/

namespace ExecutorHost

/-- A worker that stems from a registration. -/
structure Enrolled (α : Type) where
  /-- The serial number of the registration. -/
  serial : Nat
  /-- The worker. -/
  worker : α
deriving Repr

/-- A worker changed if it stems from the registration of a number. -/
def Enrolled.update {α : Type} (serial : Nat) (change : α → α) (e : Enrolled α) : Enrolled α :=
  if e.serial = serial then { e with worker := change e.worker } else e

/-- A host at work. -/
structure Session where
  /-- The platforms. -/
  platforms : Registry := .empty
  /-- The executor specifications. -/
  specifications : Loader (Enrolled Specification) := .empty
  /-- The combiners. -/
  combiners : Loader (Enrolled Combiner) := .empty
  /-- The mappings. -/
  mappings : Loader Mapping := .empty
  /-- The settings search, if there is one. -/
  search : Option SettingsSearch := none
  /-- The slots of executors that combine settings, under the names of the executors. -/
  combining : IdMap (Slot (Enrolled Combiner)) := .empty
  /-- The slots of executors that split settings. -/
  splitting : IdMap (Slot (Enrolled Combiner)) := .empty
  /-- The slots of executors that make mappings. -/
  mapping : IdMap (Slot Mapping) := .empty
  /-- The serial number of the next registration. -/
  serial : Nat := 0

namespace Session

variable {ε : Type}

/-- The specifications as they are now. -/
def currentSpecifications (s : Session) : Loader Specification := s.specifications.map (·.worker)

/-- The combiners as they are now. -/
def currentCombiners (s : Session) : Combiners := s.combiners.map (·.worker)

/-! ## Specifications -/

/-- The session with a specification registered under an id. -/
def registerSpecification (s : Session) (id : String) (specification : Specification) :
    Logged ε Session := do
  let specifications ← s.specifications.register id ⟨s.serial, specification⟩
  return { s with specifications, serial := s.serial + 1 }

/-- The session without the specification of an id, and that specification. -/
def removeSpecification (s : Session) (id : String) :
    Logged ε (Session × Option Specification) := do
  let (specifications, removed) ← s.specifications.remove id
  return ({ s with specifications }, removed.map (·.worker))

/-- The specification of an id, which must be registered. -/
def specification (s : Session) (id : String) : Except WorkerError Specification :=
  (s.specifications.require id).map (·.worker)

/-- The session with the controls of a registered specification changed, wherever it is in use. -/
def change (s : Session) (id : String) (change : ControlChange) : Except WorkerError Session := do
  let serial := (← s.specifications.require id).serial
  let combiner := Enrolled.update serial (Combiner.change · change)
  let slot (taken : Slot (Enrolled Combiner)) := { taken with copy := taken.copy.map combiner }
  return { s with
    specifications := s.specifications.map (Enrolled.update serial change.apply)
    combiners := s.combiners.map combiner
    combining := s.combining.map slot
    splitting := s.splitting.map slot }

/-- The session with the specifications of a models folder, and their number. -/
def loadSpecifications (s : Session) (tree : FileTree) (folder : Path) :
    Logged WorkerError (Session × Nat) :=
  Models.loadSpecifications tree folder (fun s spec => s.registerSpecification spec.id spec) s

/-! ## Combiners -/

/-- The combiner of a specification, which keeps its serial number. -/
def combinerOf (e : Enrolled Specification) : Except SettingsError (Enrolled Combiner) :=
  (Combiner.ofSpecification e.worker).map (⟨e.serial, ·⟩)

/-- The combiners of all settings specifications, under the same ids. -/
def combinersOf (specifications : Loader (Enrolled Specification)) :
    List (String × Enrolled Combiner) :=
  specifications.entries.filterMap fun (id, e) => ((combinerOf e).toOption).map (id, ·)

/-- The session with a combiner for every settings specification, and their number. -/
def registerCombiners (s : Session) : Logged ε (Session × Nat) := do
  let made := combinersOf s.specifications
  let combiners ← Combiner.registerEach (·.worker) s.combiners made
  return ({ s with combiners }, made.length)

/-- The session with the combiner of a specification, under an id or else its own; the combiner. -/
def registerCombiner (s : Session) (specification : Enrolled Specification)
    (id : Option String) : Logged SettingsError (Session × Combiner) := do
  let made ← MonadExcept.ofExcept (combinerOf specification)
  let key := id.getD made.worker.id
  let combiners ← Combiner.registerEach (·.worker) s.combiners [(key, made)]
  return ({ s with combiners }, made.worker)

/-- The session without the combiner of an id, and that combiner. -/
def removeCombiner (s : Session) (id : String) : Logged ε (Session × Option Combiner) := do
  let (combiners, removed) ← s.combiners.remove id
  return ({ s with combiners }, removed.map (·.worker))

/-- The combiner of an id, which must be registered. -/
def combiner (s : Session) (id : String) : Except WorkerError Combiner :=
  (s.combiners.require id).map (·.worker)

/-! ## Mappings -/

/-- The session with a mapping registered under an id. -/
def registerMapping (s : Session) (id : String) (m : Mapping) : Logged ε Session :=
  return { s with mappings := ← s.mappings.register id m }

/-- The session without the mapping of an id, and that mapping. -/
def removeMapping (s : Session) (id : String) : Logged ε (Session × Option Mapping) := do
  let (mappings, removed) ← s.mappings.remove id
  return ({ s with mappings }, removed)

/-- The session with the mappings of a models folder, and their number. -/
def loadMappings (s : Session) (tree : FileTree) (folder : Path) :
    Logged WorkerError (Session × Nat) := do
  let (mappings, count) ← Models.loadMappings tree folder s.mappings
  return ({ s with mappings }, count)

/-! ## Executors -/

/-- The slot of an executor; one that is new takes its worker from an id. -/
def slotOf {α : Type} (slots : IdMap (Slot α)) (name id : String) : Slot α :=
  (slots.get? name).getD { id }

/-- A session after a run of an executor. -/
structure Ran (α : Type) where
  /-- The session. -/
  session : Session
  /-- The id of the executor's worker. -/
  id : String
  /-- How the run ended. -/
  result : α

/-- A run of the combining executor of a name. -/
def combineIn (s : Session) (name id : String) (parameters : Members) (input : String) :
    Logged ε (Ran (Except SettingsError SettingsOutput)) := do
  let slot := slotOf s.combining name id
  let run := SettingsExecutor.combine (·.worker) s.combiners slot parameters input
  (SettingsExecutor.runEvents slot run.slot run.result).forM Logged.report
  return ⟨{ s with combining := s.combining.insert name run.slot }, slot.id, run.result⟩

/-- A run of the splitting executor of a name. -/
def splitIn (s : Session) (name id : String) (parameters : Members) (input : String) :
    Logged ε (Ran (SplitResult SettingsOutput)) := do
  let slot := slotOf s.splitting name id
  let run := SettingsExecutor.split (·.worker) s.combiners slot parameters input
  (SettingsExecutor.runEvents slot run.slot run.result.result).forM Logged.report
  return ⟨{ s with splitting := s.splitting.insert name run.slot }, slot.id, run.result⟩

/-- A run of the mapping executor of a name. -/
def mapIn (s : Session) (name id : String) (parameters : Members) :
    Logged ε (Ran (Except WorkerError MappingOutput)) := do
  let slot := slotOf s.mapping name id
  let result ← (runMapping slot s.mappings parameters).attempt
  let after := match result with
    | .ok (_, filled) => filled
    | .error _ => slot
  return ⟨{ s with mapping := s.mapping.insert name after }, slot.id, result.map (·.1)⟩

/-! ## Search -/

/--
The search made again, which there must be; the session keeps an earlier result after an error.
-/
def runSearch (s : Session) (search : SettingsSearch) :
    Logged SettingsError (Session × SettingsSearch) := do
  let search ← Host.searchSettings search s.currentSpecifications
  return ({ s with search := some search }, search)

end Session

/-- The session that begins with a host. -/
def Session.ofHost (h : Host) : Session :=
  let enrolled := h.specifications.entries.zipIdx.map fun ((id, s), serial) => (id, serial, s)
  let serialOf (id : String) : Nat := (enrolled.lookup id).elim enrolled.length (·.1)
  { platforms := h.platforms
    specifications := enrolled.foldl
      (fun loader (id, serial, s) => loader.insert id ⟨serial, s⟩) .empty
    combiners := h.combiners.entries.foldl
      (fun loader (id, c) => loader.insert id ⟨serialOf id, c⟩) .empty
    mappings := h.mappings
    search := h.search
    serial := enrolled.length + 1 }

end ExecutorHost
