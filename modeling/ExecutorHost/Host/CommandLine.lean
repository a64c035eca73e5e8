import ExecutorHost.Host.Summary

/-!
# Command line

The program takes the path of a configuration file, or uses a default one, builds the host and
prints a summary of it.
-/

namespace ExecutorHost

/-- What the arguments of the program ask for. -/
inductive Request
  /-- How to use the program. -/
  | usage
  /-- The summary of the host that a configuration file describes. -/
  | summary (file : Path)
deriving DecidableEq, Repr

namespace Request

/-- The configuration file that is used if none is given. -/
def defaultFile : Path := ⟨"configs/runtime.yaml"⟩

/-- The words that ask how to use the program. -/
def helpWords : List String := ["--help", "-h"]

/-- What arguments ask for. -/
def ofArguments : List String → Request
  | [] => .summary defaultFile
  | [word] => if word ∈ helpWords then .usage else .summary ⟨word⟩
  | _ => .usage

end Request

/-- What the program prints, and the code that it ends with. -/
structure Outcome where
  /-- The code. -/
  code : UInt8
  /-- The lines for standard output. -/
  output : List String := []
  /-- The lines for standard error. -/
  errors : List String := []
deriving DecidableEq, Repr

namespace Outcome

/-- How to use the program. -/
def usage (program : String) : Outcome where
  code := 1
  errors := [s!"Usage: {program} [runtime.yaml]",
    s!"Example: {program} {Request.defaultFile.text}"]

/-- The host could not be built. -/
def failure (file : Path) (e : HostError) : Outcome where
  code := 1
  errors := [s!"Error: cannot build runtime from {file.text}", "", "Caused by:",
    s!"    {e.message}"]

/-- The summary of a host. -/
def success (file : Path) (h : Host) : Outcome where
  code := 0
  output := s!"📋 Configuration: {file.text}" :: h.summary

/-- The answer to a request. -/
def ofRequest {ε : Type} (program : String) (tree : FileTree) : Request → Logged ε Outcome
  | .usage => return usage program
  | .summary file => do
    match ← (Host.load tree file).attempt with
    | .ok host => return success file host
    | .error e => return failure file e

/-- The line about the time that the program took. -/
def timeLine (duration : Duration) : String := s!"⏱️  Total Time: {duration.text}"

end Outcome

end ExecutorHost
