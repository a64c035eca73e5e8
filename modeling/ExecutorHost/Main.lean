import ExecutorHost.Document.Reader
import ExecutorHost.FileTree.Listing
import ExecutorHost.Host.CommandLine

/-!
# The program

Prints the summary of a host. The files of the working folder are given on standard input, as a
listing; what the host reports is printed on standard error.
-/

namespace ExecutorHost

/-- The file tree that standard input lists; an empty input lists no files. -/
def readTree : IO FileTree := do
  let input ← (← IO.getStdin).readToEnd
  let working : Path := ⟨s!"{← IO.currentDir}"⟩
  match Document.ofText input with
  | .ok (.object listing) => return FileTree.ofListing working listing
  | _ => return FileTree.empty working

/-- The events that the program prints. -/
def isShown (e : Event) : Bool := e.level = .info || e.level = .warn || e.level = .error

end ExecutorHost

open ExecutorHost in
/-- The program. -/
def main (arguments : List String) : IO UInt32 := do
  let start ← IO.monoNanosNow
  let request := Request.ofArguments arguments
  let tree ← match request with
    | .usage => pure (FileTree.empty ⟨"/"⟩)
    | .summary _ => readTree
  let action : Logged Empty Outcome := Outcome.ofRequest s!"{← IO.appPath}" tree request
  let (result, journal) := action.run.run {}
  for e in journal.events.filter isShown do IO.eprintln s!"{e.level.name} {e.text}"
  match result with
  | .ok outcome =>
    outcome.output.forM IO.println
    outcome.errors.forM IO.eprintln
    if outcome.code = 0 then
      IO.println ""
      IO.println (Outcome.timeLine ⟨(← IO.monoNanosNow) - start⟩)
    return outcome.code.toUInt32
