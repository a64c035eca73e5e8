import ExecutorHost.Binary64

/-!
# Documents

The values that manifests, specifications, settings and configurations are written in. An object
keeps its members in order, and the operations on members below keep its keys distinct: a put member
takes the place of an earlier one of its key or else goes to the end.
-/

namespace ExecutorHost

/-- A number of a document: an integer that fits into 64 bits, signed or unsigned, or a double. -/
inductive Number
  /-- A whole number written without point and exponent. -/
  | whole (value : Int)
  /-- Any other number. -/
  | real (value : Binary64)
deriving DecidableEq, Repr, Inhabited

/-- A document: a value of the text format that all files of the host are written in. -/
inductive Document
  /-- The absent value. -/
  | null
  /-- A truth value. -/
  | bool (value : Bool)
  /-- A number. -/
  | number (value : Number)
  /-- A text. -/
  | string (value : String)
  /-- A list of documents. -/
  | array (items : List Document)
  /-- Named documents, in order. -/
  | object (members : List (String × Document))
deriving Repr, Inhabited

/-- The members of an object, in order. -/
abbrev Members := List (String × Document)

namespace Members

/-- The keys, in order. -/
def keys (members : Members) : List String := members.map (·.1)

/-- No key stands twice. -/
def Distinct (members : Members) : Prop := (keys members).Nodup

/-- The value under a key; the first one, if a key stood twice. -/
def get? (members : Members) (key : String) : Option Document :=
  match members with
  | [] => none
  | (k, v) :: rest => if k = key then some v else get? rest key

/-- The members of the object under a key; none if there is no object. -/
def objectAt (members : Members) (key : String) : Members :=
  match get? members key with
  | some (.object inner) => inner
  | _ => []

/-- A value put under a key: in place of the value there, or else as the last member. -/
def put (members : Members) (key : String) (value : Document) : Members :=
  match members with
  | [] => [(key, value)]
  | (k, v) :: rest => if k = key then (key, value) :: rest else (k, v) :: put rest key value

/-- A member put only if there is a value for it. -/
def putOptional (members : Members) (key : String) (value : Option Document) : Members :=
  match value with
  | some v => put members key v
  | none => members

/-- Members with those of a second object put on top of them, one after another. -/
def overlay (base upper : Members) : Members :=
  upper.foldl (fun members entry => put members entry.1 entry.2) base

/-- Members made from a list of entries by putting one after another. -/
def ofEntries (entries : List (String × Document)) : Members := overlay [] entries

end Members

namespace Document

/-- The list of texts as a document. -/
def ofStrings (texts : List String) : Document := .array (texts.map .string)

/-- A text or null. -/
def ofString? : Option String → Document
  | some s => .string s
  | none => .null

/-- A natural number as a document. -/
def ofNat (n : Nat) : Document := .number (.whole n)

/-- The members of an object; nothing for any other document. -/
def members? : Document → Option Members
  | .object members => some members
  | _ => none

/-- The members of an object; none for any other document. -/
def membersOrEmpty (d : Document) : Members := d.members?.getD []

/-- The document is null. -/
def isNull : Document → Bool
  | .null => true
  | _ => false

/-- The text of a string document. -/
def string? : Document → Option String
  | .string s => some s
  | _ => none

/-- The truth value of a boolean document. -/
def bool? : Document → Option Bool
  | .bool b => some b
  | _ => none

/-- The items of an array document. -/
def items? : Document → Option (List Document)
  | .array items => some items
  | _ => none

end Document

end ExecutorHost
