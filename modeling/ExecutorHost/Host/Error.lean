import ExecutorHost.Extension.Error
import ExecutorHost.Settings.Error
import ExecutorHost.Settings.Search

/-!
# Errors of hosts

Why a host cannot be built from its configuration.
-/

namespace ExecutorHost

/-- Why a host cannot be built. -/
inductive HostError
  /-- The configuration file cannot be read. -/
  | configUnreadable (path : Path) (fault : IoFault)
  /-- The configuration file holds no configuration. -/
  | configMalformed (path : Path)
  /-- The settings search left references unresolved. -/
  | incompleteSettings (unresolved : List UnresolvedReference)
  /-- An extension is refused. -/
  | extension (error : ExtensionError)
  /-- A worker is refused. -/
  | worker (error : WorkerError)
  /-- The settings are refused. -/
  | settings (error : SettingsError)
deriving Repr

/-- The wording of an error; what a file tree or a text had to say about it is left out. -/
def HostError.message : HostError → String
  | .configUnreadable path _ => s!"Cannot read runtime config {path.text}"
  | .configMalformed path => s!"Invalid runtime config {path.text}"
  | .incompleteSettings unresolved =>
    "Settings search is incomplete, unresolved sub-settings: " ++
      ", ".intercalate (unresolved.map UnresolvedReference.text)
  | .extension error => error.message
  | .worker error => error.message
  | .settings error => error.message

end ExecutorHost
