import ExecutorHost.Settings.Split
import ExecutorHost.Text.Blank
import ExecutorHost.Worker.Slot

/-!
# Settings executors

Executors that combine or split the settings document of one settings specification. Each keeps its
own copy of the combiner in a slot, taken at its first run and kept even if that run then fails on
its input. The report of a finished run carries a measured duration, so it is left to the caller.

The workers of a loader may be combiners or anything that shows one.
-/

namespace ExecutorHost

/-- What a settings executor puts out. -/
structure SettingsOutput where
  /-- The settings document, in the pretty form. -/
  settings : String
  /-- The name of the settings. -/
  settingsName : String
deriving DecidableEq, Repr

namespace SettingsOutput

/-- The output of a combiner for a settings document. -/
def ofSettings (combiner : Combiner) (settings : Members) : SettingsOutput :=
  ⟨(Document.object settings).prettyText, combiner.name⟩

/-- The kind of a document that is no object. -/
def nonObject? : Document → Except NonObject Members
  | .null => .error .null
  | .bool _ => .error .boolean
  | .number _ => .error .number
  | .string _ => .error .string
  | .array _ => .error .array
  | .object members => .ok members

/-- The document that an input text writes; a blank text stands for the empty document. -/
def readInput (input : String) : Except SettingsError Members := do
  if Text.isBlank input then return []
  let document ← (Document.ofText input).mapError .unreadable
  (nonObject? document).mapError .notObject

end SettingsOutput

/-- The slot of an executor after a run, and how the run ended. -/
structure SlotRun (ω ρ : Type) where
  /-- The slot, filled if its worker was found. -/
  slot : Slot ω
  /-- The result. -/
  result : ρ

namespace SettingsExecutor

variable {ω : Type}

/-- What a run reports: a worker taken for the first time, and a circle of references. -/
def runEvents {α : Type} (before after : Slot ω) (result : Except SettingsError α) : List Event :=
  (if before.copy.isNone && after.copy.isSome then [.workerInstantiated before.id] else []) ++
    match result with
    | .error e => e.events
    | .ok _ => []

/-- A run that puts an input document on top of the parameters. -/
def combine (view : ω → Combiner) (loader : Loader ω) (slot : Slot ω) (parameters : Members)
    (input : String) : SlotRun ω (Except SettingsError SettingsOutput) :=
  match slot.fill loader with
  | .error e => ⟨slot, .error (.worker e)⟩
  | .ok worker =>
    ⟨slot.filled worker, do
      let document ← SettingsOutput.readInput input
      let settings ← (view worker).combine (loader.map view) parameters document
      return .ofSettings (view worker) settings⟩

/-- A run that writes an input document back into the parameters. -/
def split (view : ω → Combiner) (loader : Loader ω) (slot : Slot ω) (parameters : Members)
    (input : String) : SlotRun ω (SplitResult SettingsOutput) :=
  match slot.fill loader with
  | .error e => ⟨slot, ⟨parameters, .error (.worker e)⟩⟩
  | .ok worker =>
    ⟨slot.filled worker,
      match SettingsOutput.readInput input with
      | .error e => ⟨parameters, .error e⟩
      | .ok document =>
        let run := (view worker).split (loader.map view) parameters document
        ⟨run.parameters, run.result.map (.ofSettings (view worker))⟩⟩

end SettingsExecutor

end ExecutorHost
