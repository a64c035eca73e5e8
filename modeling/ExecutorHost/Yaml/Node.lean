import ExecutorHost.Yaml.Token

/-!
# YAML documents

The document of a text: a tree of nodes, and the nodes in it that have names. A node may be given a
name, and behind that the name may stand in place of a node, also inside the node itself. Names are
numbered when they are given, and only the numbers are kept. What a number stands for is settled at
the end of the document: the last node that got the number.
-/

namespace ExecutorHost.Yaml

/-- A node of a document. -/
inductive Node
  /-- A scalar, with its tag if it has one. -/
  | scalar (text : String) (style : ScalarStyle) (tag : Option Tag)
  /-- A list. -/
  | sequence (items : List Node)
  /-- A mapping, with its entries as written. -/
  | mapping (entries : List (Node × Node))
  /-- The node of a number. -/
  | alias (number : Nat)
deriving Repr, Inhabited

/-- A document. -/
structure Document where
  /-- The node of the whole document. -/
  root : Node
  /-- The nodes that have names, each with its number, in the order in which they begin. -/
  named : List (Nat × Node)
deriving Repr, Inhabited

/-- A node, or the node that it stands for. -/
def Document.follow? (d : Document) : Node → Option Node
  | .alias number => d.named.reverse.lookup number
  | node => some node

namespace Node

/-- The node that stands where nothing is written. -/
def absent : Node := .scalar "" .plain none

/-- The state of a reading. -/
structure Reading where
  /-- The tokens left. -/
  tokens : List Token
  /-- The names with their numbers. -/
  numbers : List (String × Nat) := []
  /-- The nodes that have names, in the order in which they begin; absent until they are read. -/
  named : List (Nat × Node) := []
  /-- What tag handles stand for. -/
  handles : Tag.Handles := []

/-- A step of reading, which fails if the tokens make no document. -/
abbrev Read := StateT Reading Option

namespace Read

/-- The next token, if there is one. -/
def peek : Read (Option Token) := return (← get).tokens.head?

/-- The next token taken. -/
def skip : Read Unit := modify fun r => { r with tokens := r.tokens.tail }

/-- The next token taken if it is the given one. -/
def take (t : Token) : Read Bool := do
  if (← peek) == some t then
    skip
    return true
  return false

/-- The next token is one of these, or there is none. -/
def sees (ts : List Token) : Read Bool :=
  return (← peek).all (· ∈ ts)

/-- The reading failed. -/
def fail {α : Type} : Read α := fun _ => none

/-- The next token taken, which must be the given one. -/
def require (t : Token) : Read Unit := do
  if !(← take t) then fail

/-- The anchor and the tag in front of a node, each at most once. -/
structure Properties where
  /-- The name that the node gets. -/
  name : Option String := none
  /-- The tag. -/
  tag : Option Tag := none

/-- There is an anchor or a tag. -/
def Properties.any (p : Properties) : Bool := p.name.isSome || p.tag.isSome

/-- The properties that come next. -/
def properties : (bound : Nat) → Properties → Read Properties
  | 0, p => return p
  | bound + 1, p => do
    match ← peek with
    | some (.anchor name) =>
      if p.name.isSome then return p
      skip
      properties bound { p with name }
    | some (.tag written) =>
      if p.tag.isSome then return p
      let some tag := written.tag? (← get).handles | fail
      skip
      properties bound { p with tag }
    | _ => return p

/--
A name given to the node that is about to be read; the place of the node among those with names. The
number of the name is the number of different names before. So a name that is given again gets a
number that the next new name gets as well.
-/
def giveName (name : String) : Read Nat := do
  let r ← get
  let number := r.numbers.length
  let others := r.numbers.filter (·.1 ≠ name)
  set { r with
    numbers := (name, number) :: others
    named := r.named ++ [(number, absent)] }
  return r.named.length

/-- The node at a place among those with names, which has been read. -/
def fillName (place : Nat) (node : Node) : Read Unit :=
  modify fun r => { r with named := r.named.modify place fun (number, _) => (number, node) }

/-- The node that a name stands for. -/
def named (name : String) : Read Node := do
  match (← get).numbers.lookup name with
  | some number => return .alias number
  | none => fail

end Read

open Read

mutual

/--
A node. Inside brackets and braces no block may stand; the entries of a list may stand at the
margin of the mapping around, which is then their end.
-/
def read (block marginal : Bool) : (bound : Nat) → Read Node
  | 0 => fail
  | bound + 1 => do
    if let some (.alias name) ← peek then
      skip
      return ← named name
    let p ← properties 2 {}
    match p.name with
    | none => readContent block marginal p bound
    | some name =>
      let place ← giveName name
      let node ← readContent block marginal p bound
      fillName place node
      return node

/-- What follows the properties of a node; with properties it may be absent. -/
def readContent (block marginal : Bool) (p : Properties) : (bound : Nat) → Read Node
  | 0 => fail
  | bound + 1 => do
    let missing : Read Node := if p.any then return .scalar "" .plain p.tag else fail
    match ← peek with
    | some .entry => if marginal then return .sequence (← readMarginal bound) else missing
    | some (.scalar text style) =>
      skip
      return .scalar text style p.tag
    | some .flowSequence =>
      skip
      return .sequence (← readFlowItems true bound)
    | some .flowMapping =>
      skip
      return .mapping (← readFlowEntries true bound)
    | some .blockSequence =>
      if !block then missing
      else
        skip
        return .sequence (← readBlockItems bound)
    | some .blockMapping =>
      if !block then missing
      else
        skip
        return .mapping (← readBlockEntries bound)
    | _ => missing

/-- The entries of an indented list. -/
def readBlockItems : (bound : Nat) → Read (List Node)
  | 0 => fail
  | bound + 1 => do
    if ← take .blockEnd then return []
    require .entry
    let item ← if ← sees [.entry, .blockEnd] then pure absent else read true false bound
    return item :: (← readBlockItems bound)

/-- The entries of a list at the margin of a mapping. -/
def readMarginal : (bound : Nat) → Read (List Node)
  | 0 => fail
  | bound + 1 => do
    if !(← take .entry) then return []
    let item ←
      if ← sees [.entry, .key, .value, .blockEnd] then pure absent else read true false bound
    return item :: (← readMarginal bound)

/-- The entries of an indented mapping. -/
def readBlockEntries : (bound : Nat) → Read (List (Node × Node))
  | 0 => fail
  | bound + 1 => do
    if ← take .blockEnd then return []
    require .key
    let key ← readBlockPart bound
    let value ← if ← take .value then readBlockPart bound else pure absent
    return (key, value) :: (← readBlockEntries bound)

/-- A key or a value of an indented mapping. -/
def readBlockPart : (bound : Nat) → Read Node
  | 0 => fail
  | bound + 1 => do
    if ← sees [.key, .value, .blockEnd] then return .absent else read true true bound

/--
The items of a list in brackets; an item with a key is a mapping of its own. Where the key is
absent, the token behind its mark is passed over.
-/
def readFlowItems (first : Bool) : (bound : Nat) → Read (List Node)
  | 0 => fail
  | bound + 1 => do
    if ← take .flowSequenceEnd then return []
    unless first do require .comma
    if ← take .flowSequenceEnd then return []
    let item ←
      if ← take .key then do
        let key ←
          if ← sees [.value, .comma, .flowSequenceEnd] then do
            skip
            pure absent
          else read false false bound
        let value ← readFlowValue .flowSequenceEnd bound
        pure (.mapping [(key, value)])
      else read false false bound
    return item :: (← readFlowItems false bound)

/-- The entries of a mapping in braces. -/
def readFlowEntries (first : Bool) : (bound : Nat) → Read (List (Node × Node))
  | 0 => fail
  | bound + 1 => do
    if ← take .flowMappingEnd then return []
    unless first do require .comma
    if ← take .flowMappingEnd then return []
    let entry ←
      if ← take .key then do
        let key ← readFlowPart [.value, .comma, .flowMappingEnd] bound
        pure (key, ← readFlowValue .flowMappingEnd bound)
      else pure (← read false false bound, absent)
    return entry :: (← readFlowEntries false bound)

/-- A key or a value inside brackets or braces, absent in front of some tokens. -/
def readFlowPart (ends : List Token) : (bound : Nat) → Read Node
  | 0 => fail
  | bound + 1 => do
    if ← sees ends then return .absent else read false false bound

/-- The value behind a key inside brackets or braces, up to a comma or the end. -/
def readFlowValue (last : Token) : (bound : Nat) → Read Node
  | 0 => fail
  | bound + 1 => do
    if ← take .value then readFlowPart [.comma, last] bound else return .absent

end

/-- The next token belongs to what stands around documents, or there is none. -/
def seesBoundary : Read Bool :=
  return (← peek).all fun
    | .version | .handle .. | .documentStart | .documentEnd => true
    | _ => false

/--
The remarks in front of a document: the version at most once, and each handle at most once. The
handles that they declare are known from then on.
-/
def readDirectives : (bound : Nat) → (versioned any : Bool) → Read Bool
  | 0, _, _ => fail
  | bound + 1, versioned, any => do
    match ← peek with
    | some .version =>
      if versioned then fail
      skip
      readDirectives bound true true
    | some (.handle name start) =>
      let r ← get
      if r.handles.any (·.1 == name) then fail
      set { r with handles := (name, start) :: r.handles }
      skip
      readDirectives bound versioned true
    | _ => return any

/-- The marks behind a document, after which the text must end. -/
def readEnd : (bound : Nat) → Read Unit
  | 0 => fail
  | bound + 1 => do
    if ← take .documentEnd then readEnd bound
    else if (← peek).isSome then fail

/-- The node of the only document of a text; a text without any is an absent node. -/
def readDocument (bound : Nat) : Read Node := do
  let remarked ← readDirectives bound false false
  modify fun r => { r with handles := r.handles ++ Tag.standardHandles }
  let marked ← take .documentStart
  if remarked && !marked then fail
  let empty ← if marked then seesBoundary else sees []
  let node ← if empty then pure absent else read true false bound
  readEnd bound
  return node

end Node

/-- The document that a text writes, if it is well formed and the only one. -/
def Document.ofText? (text : String) : Option Document := do
  let tokens ← tokens? text
  let (root, r) ← (Node.readDocument (8 * tokens.length + 8)).run { tokens }
  return { root, named := r.named }

end ExecutorHost.Yaml
