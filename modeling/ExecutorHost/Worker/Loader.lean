import ExecutorHost.Event.Journal
import ExecutorHost.IdMap
import ExecutorHost.Worker.Error

/-!
# Worker loaders

A loader holds workers under their ids. Registering a worker under an id replaces the one that is
there. What enters and leaves a loader is reported.
-/

namespace ExecutorHost

/-- Workers under their ids. -/
abbrev Loader (α : Type) := IdMap α

namespace Loader

variable {α : Type}

/-- The worker of an id, which must be registered. -/
def require (loader : Loader α) (id : String) : Except WorkerError α :=
  match loader.get? id with
  | some worker => .ok worker
  | none => .error (.notRegistered id)

/-- What registering a worker under an id reports. -/
def registeredEvent (loader : Loader α) (id : String) : Event :=
  .workerRegistered id (loader.contains id)

/-- A worker registered, and reported. -/
def register {ε : Type} (loader : Loader α) (id : String) (worker : α) : Logged ε (Loader α) := do
  Logged.report (loader.registeredEvent id)
  return loader.insert id worker

/-- A worker removed, and reported if there was one; the removed worker. -/
def remove {ε : Type} (loader : Loader α) (id : String) : Logged ε (Loader α × Option α) := do
  match loader.get? id with
  | some worker =>
    Logged.report (.workerRemoved id)
    return (loader.erase id, some worker)
  | none => return (loader, none)

end Loader

end ExecutorHost
