import ExecutorHost.Event.Journal
import ExecutorHost.Worker.Error

/-!
# Errors of settings

Why settings cannot be combined, split or searched.
-/

namespace ExecutorHost

/-- The kinds of document that are no settings. -/
inductive NonObject
  /-- Null. -/
  | null
  /-- A truth value. -/
  | boolean
  /-- A number. -/
  | number
  /-- A text. -/
  | string
  /-- A list. -/
  | array
deriving DecidableEq, Repr

/-- The kind in words. -/
def NonObject.phrase : NonObject → String
  | .null => "null"
  | .boolean => "a boolean"
  | .number => "a number"
  | .string => "a string"
  | .array => "an array"

/-- Why an operation on settings fails. -/
inductive SettingsError
  /-- A search was asked for its result before it was made. -/
  | notProcessed
  /--
  Settings refer to each other in a circle: the ids on the way, the first one again at the end.
  -/
  | cycle (ids : List String)
  /-- A specification does not describe settings. -/
  | notSettings (id : String)
  /-- The settings behind a control are not registered. -/
  | subSettingsNotFound (control target : String)
  /-- A settings document is no object. -/
  | notObject (found : NonObject)
  /-- A worker is missing. -/
  | worker (error : WorkerError)
  /-- A text is no document at all. -/
  | unreadable (fault : Document.Fault)
deriving Repr

namespace SettingsError

/-- The wording of an error; what a text had to say about it is left out. -/
def message : SettingsError → String
  | .notProcessed => "Smart search has not been performed yet"
  | .cycle ids => "Settings reference cycle detected: " ++ " -> ".intercalate ids
  | .notSettings id => s!"Executor \"{id}\" is not a settings specification"
  | .subSettingsNotFound control target =>
    s!"Sub-settings \"{target}\" of control \"{control}\" is not registered"
  | .notObject found =>
    s!"Invalid settings document: expected a JSON object, found {found.phrase}"
  | .worker error => error.message
  | .unreadable _ => "Cannot parse settings JSON"

/-- What an error reports when it arises: a circle of references. -/
def events : SettingsError → List Event
  | .cycle ids => [.settingsCycleDetected ids]
  | _ => []

/-- A result handed on, after its error has been reported. -/
def settle {α : Type} (result : Except SettingsError α) : Logged SettingsError α := do
  match result with
  | .ok value => return value
  | .error e =>
    e.events.forM Logged.report
    throw e

end SettingsError

end ExecutorHost
