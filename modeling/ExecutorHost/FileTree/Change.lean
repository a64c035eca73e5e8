import ExecutorHost.FileTree.Walk

/-!
# Changing a file tree

Making folders, writing files and links, and removing what a path names together with everything
below it.
-/

namespace ExecutorHost.FileTree

/-- The tree with a folder at every location on the way to one, where nothing stands yet. -/
def putFolders (tree : FileTree) (here : Location) : List String → FileTree
  | [] => tree
  | name :: rest =>
    let location := here ++ [name]
    let grown := match tree.entry? location with
      | none => tree.put location .folder
      | some _ => tree
    putFolders grown location rest

/-- A tree that holds nothing but its working folder. -/
def empty (working : Path) : FileTree :=
  let names := (steps working).filter fun step => step ≠ "" ∧ step ≠ "."
  putFolders ⟨[], working⟩ [] names

/-- A path as the folder that it stands in and its last name, if it ends in a name. -/
def lastName? (p : Path) : Option (Path × String) := do
  return ((← p.parent?), (← p.fileName?))

/--
The location of the folder that a path stands in; the empty path stands for the working folder.
-/
def locateFolder (tree : FileTree) (p : Path) : Except IoFault Location := do
  let p := if p.text.isEmpty then ⟨"."⟩ else p
  let location ← tree.locate p
  match tree.entry? location with
  | some .folder => .ok location
  | _ => .error .notFolder

/-- The tree with a new entry at a path whose folder exists. -/
def putNew (tree : FileTree) (p : Path) (entry : Entry) : Except IoFault FileTree := do
  match lastName? p with
  | some (folder, name) => return tree.put ((← tree.locateFolder folder) ++ [name]) entry
  | none => .error .isFolder

/--
The location where the steps of a path put a file, which need not be there yet. Links are followed,
also one at the end that leads to no file so far. The last step must be a name with nothing behind
it, not even an empty step, and no folder may stand there.
-/
def fileLocation (tree : FileTree) (links : Nat) (here : Location) :
    List String → Except IoFault Location
  | [] => .error .isFolder
  | step :: rest =>
    match tree.entry? here with
    | some .folder =>
      if step = "" ∨ step = "." then fileLocation tree links here rest
      else if step = ".." then fileLocation tree links here.dropLast rest
      else if rest ≠ [] ∧ rest.all (· = "") then .error .isFolder
      else
        match tree.entry? (here ++ [step]) with
        | some (.link target) =>
          match links with
          | 0 => .error .linkLoop
          | links + 1 =>
            fileLocation tree links (if target.isAbsolute then [] else here) (steps target ++ rest)
        | some .folder => fileLocation tree links (here ++ [step]) rest
        | some (.file _) => if rest = [] then .ok (here ++ [step]) else .error .notFolder
        | none => if rest = [] then .ok (here ++ [step]) else .error .notFound
    | some _ => .error .notFolder
    | none => .error .notFound
termination_by pending => (links, pending.length)

/-- A file written: the file that the path leads to gets these bytes, or else a new one is made. -/
def write (tree : FileTree) (p : Path) (bytes : List UInt8) : Except IoFault FileTree := do
  if p.text.isEmpty then .error .notFound
  return tree.put (← tree.fileLocation linkLimit [] (tree.allSteps p)) (.file bytes)

/--
The tree with a folder at a path and at every step on the way, each made if it is not there. Links
on the way are followed. The first argument bounds the number of steps.
-/
def makeFolders (tree : FileTree) : Nat → Path → Except IoFault FileTree
  | 0, _ => .ok tree
  | bound + 1, p => do
    if p.text.isEmpty || tree.isFolder p then return tree
    let tree ← match p.parent? with
      | some folder => makeFolders tree bound folder
      | none => .ok tree
    if tree.isFolder p then return tree
    tree.putNew p .folder

/-- The tree with what a path names removed, and everything below it; a link is not followed. -/
def remove (tree : FileTree) (p : Path) : Except IoFault FileTree := do
  if p.text.isEmpty then .error .notFound
  let location ← tree.resolve false linkLimit [] (tree.allSteps p)
  return { tree with entries := tree.entries.filter fun e => (below? location e.1).isNone }

end ExecutorHost.FileTree
