import ExecutorHost.Worker.Loader

/-!
# Worker slots

A slot takes its own copy of a worker from a loader at its first use. From then on it keeps that
copy, whatever happens to the loader.
-/

namespace ExecutorHost

/-- A place for a private copy of the worker of one id. -/
structure Slot (α : Type) where
  /-- The id of the worker. -/
  id : String
  /-- The copy, once it has been taken. -/
  copy : Option α := none
deriving Repr

namespace Slot

variable {α : Type}

/-- The slot after a use that found a worker. -/
def filled (slot : Slot α) (worker : α) : Slot α := { slot with copy := some worker }

/-- The copy of a slot, taken from the loader if there is none yet. -/
def fill (slot : Slot α) (loader : Loader α) : Except WorkerError α :=
  match slot.copy with
  | some worker => .ok worker
  | none => loader.require slot.id

/-- The slot used: its copy and the slot that holds it. Taking the copy is reported. -/
def take (slot : Slot α) (loader : Loader α) : Logged WorkerError (α × Slot α) := do
  let worker ← MonadExcept.ofExcept (slot.fill loader)
  if slot.copy.isNone then Logged.report (.workerInstantiated slot.id)
  return (worker, slot.filled worker)

end Slot

end ExecutorHost
