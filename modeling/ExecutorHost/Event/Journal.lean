import ExecutorHost.Event.Basic

/-!
# Journals

Operations of the host report events, and reading a platform may use up a generated id. Both are
kept in a journal that is passed along, also past an error: what was reported or used before a
failure stays.
-/

namespace ExecutorHost

/-- The events reported so far and the number of ids generated so far. -/
structure Journal where
  /-- How many ids have been generated. -/
  generated : Nat := 0
  /-- The events, in order. -/
  events : List Event := []
deriving Repr, Inhabited

/-- A computation that may generate ids and may fail. -/
abbrev Generating (ε : Type) := ExceptT ε (StateM Nat)

/-- A computation that keeps a journal and may fail. -/
abbrev Logged (ε : Type) := ExceptT ε (StateM Journal)

namespace Logged

variable {ε : Type} {α : Type}

/-- An event reported. -/
def report (event : Event) : Logged ε Unit :=
  modify fun journal => { journal with events := journal.events ++ [event] }

/-- A computation that only generates ids, run with the journal's count. -/
def generating (action : Generating ε α) : Logged ε α := do
  let journal ← get
  let (result, generated) := action.run.run journal.generated
  set { journal with generated }
  MonadExcept.ofExcept result

/-- A failing computation that reports an event about its error first. -/
def reportingError (event : ε → Event) (action : Logged ε α) : Logged ε α :=
  tryCatch action fun e => do
    report (event e)
    throw e

/-- How a computation ended; what it reported stays. -/
def attempt {ε' : Type} (action : Logged ε α) : Logged ε' (Except ε α) := do
  let (result, journal) := action.run.run (← get)
  set journal
  return result

/-- A computation with another type of errors. -/
def mapError {ε' : Type} (f : ε → ε') (action : Logged ε α) : Logged ε' α := do
  match ← action.attempt with
  | .ok value => pure value
  | .error e => throw (f e)

end Logged

end ExecutorHost
