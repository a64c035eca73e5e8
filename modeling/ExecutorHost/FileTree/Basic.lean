import ExecutorHost.Path

/-!
# File trees

The files that the host reads are a value: folders, files and symbolic links at locations, where a
location is the list of names from the root on. The entries are sorted by location, so a folder
stands directly before everything below it and siblings stand in the order of their names. A path is
resolved name by name; a link on the way is replaced by its target, a bounded number of times.
-/

namespace ExecutorHost

/-- The names on the way from the root to an entry. -/
abbrev Location := List String

/-- What stands at a location. -/
inductive Entry
  /-- A file with these bytes. -/
  | file (bytes : List UInt8)
  /-- A folder. -/
  | folder
  /-- A symbolic link to another place. -/
  | link (target : Path)
deriving DecidableEq, Repr

/-- Why a file tree refuses an access. -/
inductive IoFault
  /-- Nothing stands there. -/
  | notFound
  /-- A folder stands where a file is needed. -/
  | isFolder
  /-- A file stands where a folder is needed. -/
  | notFolder
  /-- The bytes of a file are not a text. -/
  | invalidText
  /-- Links lead to links without end. -/
  | linkLoop
deriving DecidableEq, Repr

/-- A file tree with a working folder, from which relative paths start. -/
structure FileTree where
  /-- The entries below the root, sorted by location. -/
  entries : List (Location × Entry)
  /-- The absolute path of the working folder. -/
  working : Path
deriving Repr

namespace FileTree

/-- The entries with one put at its sorted place; an entry already there is replaced. -/
def place (location : Location) (entry : Entry) :
    List (Location × Entry) → List (Location × Entry)
  | [] => [(location, entry)]
  | (l, e) :: rest =>
    if location = l then (location, entry) :: rest
    else if location < l then (location, entry) :: (l, e) :: rest
    else (l, e) :: place location entry rest

/-- The tree with an entry at a location. -/
def put (tree : FileTree) (location : Location) (entry : Entry) : FileTree :=
  { tree with entries := place location entry tree.entries }

/-- What stands at a location; the root is a folder. -/
def entry? (tree : FileTree) (location : Location) : Option Entry :=
  if location = [] then some .folder else tree.entries.lookup location

/-- The number of links that are followed in one resolution. -/
def linkLimit : Nat := 40

/-- The steps of a path, as names. -/
def steps (p : Path) : List String := p.segments.map String.ofList

/--
The location that the remaining steps lead to. A step is taken only inside a folder; an empty step
and a dot stay there, double dots go up. A link is replaced by its target, except at the last step
if `follow` is off.
-/
def resolve (tree : FileTree) (follow : Bool) (links : Nat) (here : Location) :
    List String → Except IoFault Location
  | [] => .ok here
  | step :: rest =>
    match tree.entry? here with
    | some .folder =>
      if step = "" ∨ step = "." then resolve tree follow links here rest
      else if step = ".." then resolve tree follow links here.dropLast rest
      else
        match tree.entry? (here ++ [step]) with
        | none => .error .notFound
        | some (.link target) =>
          if rest.isEmpty && !follow then .ok (here ++ [step])
          else
            match links with
            | 0 => .error .linkLoop
            | links + 1 =>
              resolve tree follow links (if target.isAbsolute then [] else here)
                (steps target ++ rest)
        | some _ => resolve tree follow links (here ++ [step]) rest
    | some _ => .error .notFolder
    | none => .error .notFound
termination_by pending => (links, pending.length)

/-- The steps of a path from the root on. -/
def allSteps (tree : FileTree) (p : Path) : List String := steps (tree.working.join p)

/-- The location of a path, following a link at its end. The empty path leads nowhere. -/
def locate (tree : FileTree) (p : Path) : Except IoFault Location :=
  if p.text.isEmpty then .error .notFound
  else tree.resolve true linkLimit [] (tree.allSteps p)

/-- What a path leads to, following a link at its end. -/
def find (tree : FileTree) (p : Path) : Except IoFault Entry := do
  match tree.entry? (← tree.locate p) with
  | some entry => .ok entry
  | none => .error .notFound

/-- A path leads to something. -/
def contains (tree : FileTree) (p : Path) : Bool :=
  match tree.find p with
  | .ok _ => true
  | .error _ => false

/-- A path leads to a folder. -/
def isFolder (tree : FileTree) (p : Path) : Bool :=
  match tree.find p with
  | .ok .folder => true
  | _ => false

/-- A path leads to a file. -/
def isFile (tree : FileTree) (p : Path) : Bool :=
  match tree.find p with
  | .ok (.file _) => true
  | _ => false

/-- The one path of a location: absolute, without dots and links. -/
def pathOf (location : Location) : Path := ⟨"/" ++ "/".intercalate location⟩

/-- The path of what a path leads to, without dots and links. -/
def canonical (tree : FileTree) (p : Path) : Except IoFault Path := (tree.locate p).map pathOf

/-- The text of the file that a path leads to. -/
def readText (tree : FileTree) (p : Path) : Except IoFault String := do
  match ← tree.find p with
  | .file bytes =>
    match String.fromUTF8? ⟨bytes.toArray⟩ with
    | some text => .ok text
    | none => .error .invalidText
  | _ => .error .isFolder

/-- The bytes of a text. -/
def bytesOf (text : String) : List UInt8 := text.toUTF8.data.toList

end FileTree

end ExecutorHost
