import ExecutorHost.FileTree.Basic

/-!
# Walks through a file tree

A walk visits a folder and everything below it, each entry once, a folder before what it holds and
siblings in the order of their names. It does not descend into links; the place where it starts may
itself be a link. Since the entries are sorted by location, a walk is the run of entries whose
location continues the start.
-/

namespace ExecutorHost.FileTree

/-- An entry that a walk visits. -/
structure Visit where
  /-- The path of the start, continued by the names on the way. -/
  path : Path
  /-- How many names below the start it stands. -/
  depth : Nat
deriving Repr

/-- The names that continue a location to a longer one. -/
def below? : (start location : Location) → Option Location
  | [], rest => some rest
  | _ :: _, [] => none
  | a :: start, b :: location => if a = b then below? start location else none

/-- The visits of a walk that starts at a path. -/
def walk (tree : FileTree) (start : Path) : Except IoFault (List Visit) := do
  let location ← tree.locate start
  let inside := tree.entries.filterMap fun (l, _) =>
    match below? location l with
    | some (name :: names) => some ⟨(name :: names).foldl Path.child start, names.length + 1⟩
    | _ => none
  return ⟨start, 0⟩ :: inside

end ExecutorHost.FileTree
