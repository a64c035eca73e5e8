/-!
# Paths

A path is a text whose names are separated by slashes. It is kept as it was written: two spellings
of one place are two paths. Questions about a path go through its segments, the texts between the
slashes; empty segments and single dots stand for nothing, except that a relative path may begin
with a dot of its own.
-/

namespace ExecutorHost

/-- The spelling of a place in a file tree. -/
structure Path where
  /-- The path as written. -/
  text : String
deriving DecidableEq, Repr, Inhabited

/-- A step of a path. -/
inductive Component
  /-- The root of the file tree. -/
  | root
  /-- The dot at the start of a relative path. -/
  | current
  /-- Two dots: one level up. -/
  | parent
  /-- A name. -/
  | name (text : String)
deriving DecidableEq, Repr

/-- The order of components: by kind as they are listed, names by their characters. -/
def Component.le : Component → Component → Bool
  | .root, _ => true
  | _, .root => false
  | .current, _ => true
  | _, .current => false
  | .parent, _ => true
  | _, .parent => false
  | .name a, .name b => decide (a ≤ b)

namespace Path

/-- The texts between the slashes; there is always at least one. -/
def segments (p : Path) : List (List Char) := p.text.toList.splitOn '/'

/-- The path whose segments these are. -/
def ofSegments (segments : List (List Char)) : Path := ⟨String.ofList (['/'].intercalate segments)⟩

/-- A segment that stands for nothing: an empty one or a single dot. -/
def isTrivial (segment : List Char) : Bool := segment.isEmpty || segment == ['.']

/-- The path starts at the root of the file tree. -/
def isAbsolute (p : Path) : Bool := p.text.toList.head? == some '/'

/-- The path ends in a slash. -/
def endsInSlash (p : Path) : Bool := p.text.toList.getLast? == some '/'

/--
A path continued by another: an absolute continuation is taken alone, and otherwise a slash is put
between the two unless the first is empty or ends in one.
-/
def join (base rest : Path) : Path :=
  if rest.isAbsolute then rest
  else if base.text.isEmpty || base.endsInSlash then ⟨base.text ++ rest.text⟩
  else ⟨base.text ++ "/" ++ rest.text⟩

/-- A path continued by a name. -/
def child (base : Path) (name : String) : Path := base.join ⟨name⟩

/-- The segments with the trivial ones at the end dropped. -/
def dropTrivialEnd (segments : List (List Char)) : List (List Char) :=
  (segments.reverse.dropWhile isTrivial).reverse

/--
The path without its last component, and without the separators before it. The root and the empty
path have none; the parent of a bare name is empty.
-/
def parent? (p : Path) : Option Path :=
  match p.segments with
  | [] => none
  | first :: others =>
    match dropTrivialEnd others with
    | [] => if first.isEmpty then none else some ⟨""⟩
    | kept =>
      match first, dropTrivialEnd kept.dropLast with
      | [], [] => some ⟨"/"⟩
      | first, rest => some (ofSegments (first :: rest))

/-- The components, without the segments that stand for nothing. -/
def components (p : Path) : List Component :=
  let step (segment : List Char) : Option Component :=
    if isTrivial segment then none
    else if segment == ['.', '.'] then some .parent
    else some (.name (String.ofList segment))
  let start := if p.isAbsolute then [Component.root]
    else if p.segments.head? == some ['.'] then [.current] else []
  start ++ p.segments.filterMap step

/-- The name that the path ends in, if its last component is a name. -/
def fileName? (p : Path) : Option String :=
  match p.components.getLast? with
  | some (.name text) => some text
  | _ => none

/--
What stands behind the last dot of the file name; a name without a dot, or with its only dot in
front, has no extension.
-/
def extension? (p : Path) : Option String := do
  let name ← p.fileName?
  let fromEnd := name.toList.reverse
  match fromEnd.dropWhile (· ≠ '.') with
  | [] => none
  | [_] => none
  | _ => some (String.ofList (fromEnd.takeWhile (· ≠ '.')).reverse)

/-- The slashes that an absolute path keeps in front: two if it has exactly two, and else one. -/
def rootSlashes (p : Path) : Path :=
  match p.text.toList with
  | '/' :: '/' :: '/' :: _ => ⟨"/"⟩
  | '/' :: '/' :: _ => ⟨"//"⟩
  | _ => ⟨"/"⟩

/--
The path from the root on: a relative path is continued from the working folder, and segments that
stand for nothing are dropped. Double dots stay, and so does a slash at the end.
-/
def absolute (p working : Path) : Path :=
  let start := if p.isAbsolute then p.rootSlashes else working
  let names := p.segments.filter (!isTrivial ·)
  let whole := names.foldl (fun path name => path.child (String.ofList name)) start
  if p.endsInSlash then whole.join ⟨""⟩ else whole

/-- The order of paths: component by component. -/
def le (a b : Path) : Bool := go a.components b.components
where
  /-- The lexicographic order of component lists. -/
  go : List Component → List Component → Bool
    | [], _ => true
    | _ :: _, [] => false
    | a :: as, b :: bs => if a = b then go as bs else a.le b

end Path

/-- The text behind a phrase that names its file: nothing, or a blank and the path. -/
def inFile : Option Path → String
  | none => ""
  | some file => s!" {file.text}"

end ExecutorHost
