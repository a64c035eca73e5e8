import ExecutorHost.Document.Token

/-!
# Reading a document

The tokens drive a machine whose state says what may come next and which containers are still open.
A text is a document exactly when the machine has finished one at the end of its tokens; a text that
ends in any other state ended early. At most a given number of containers may be open at once.
-/

namespace ExecutorHost.Document

/-- An open container that waits for the value being read. -/
inductive Frame
  /-- An array, with its items so far, last item first. -/
  | array (items : List Document)
  /-- An object, with its members so far and the key that the value belongs to. -/
  | object (members : Members) (key : String)

/-- What has been read, and so what may come next. -/
inductive Reading
  /-- A value. -/
  | value (outer : List Frame)
  /-- The first item of an array, or its end. -/
  | firstItem (outer : List Frame)
  /-- A comma, or the end of an array with these items, last item first. -/
  | afterItem (items : List Document) (outer : List Frame)
  /-- The first key of an object, or its end. -/
  | firstKey (outer : List Frame)
  /-- A key of an object with these members. -/
  | nextKey (members : Members) (outer : List Frame)
  /-- The colon behind a key. -/
  | afterKey (members : Members) (key : String) (outer : List Frame)
  /-- A comma, or the end of an object with these members. -/
  | afterMember (members : Members) (outer : List Frame)
  /-- Nothing. -/
  | finished (document : Document)

namespace Reading

/-- A complete value handed to the innermost open container. -/
def deliver (d : Document) : List Frame → Reading
  | [] => .finished d
  | .array items :: outer => .afterItem (d :: items) outer
  | .object members key :: outer => .afterMember (members.put key d) outer

/-- A container opened inside the open ones, if the limit allows one more. -/
def opened (limit : Nat) (outer : List Frame) (inside : Reading) : Except Fault Reading :=
  if outer.length < limit then .ok inside else .error .malformed

/-- A token where a value must stand. -/
def readValue (limit : Nat) (outer : List Frame) : Token → Except Fault Reading
  | .scalar d => .ok (deliver d outer)
  | .quoted s => .ok (deliver (.string s) outer)
  | .openArray => opened limit outer (.firstItem outer)
  | .openObject => opened limit outer (.firstKey outer)
  | .broken fault _ => .error fault
  | _ => .error .malformed

/-- A token where a key must stand. -/
def readKey (members : Members) (outer : List Frame) : Token → Except Fault Reading
  | .quoted s => .ok (.afterKey members s outer)
  | .broken fault true => .error fault
  | _ => .error .malformed

/-- The state after one more token. -/
def step (limit : Nat) (state : Reading) (token : Token) : Except Fault Reading :=
  match state, token with
  | .value outer, t => readValue limit outer t
  | .firstItem outer, .closeArray => .ok (deliver (.array []) outer)
  | .firstItem outer, t => readValue limit (.array [] :: outer) t
  | .afterItem items outer, .comma => .ok (.value (.array items :: outer))
  | .afterItem items outer, .closeArray => .ok (deliver (.array items.reverse) outer)
  | .firstKey outer, .closeObject => .ok (deliver (.object []) outer)
  | .firstKey outer, t => readKey [] outer t
  | .nextKey members outer, t => readKey members outer t
  | .afterKey members key outer, .colon => .ok (.value (.object members key :: outer))
  | .afterMember members outer, .comma => .ok (.nextKey members outer)
  | .afterMember members outer, .closeObject => .ok (deliver (.object members) outer)
  | _, _ => .error .malformed

end Reading

/-- The document that a text writes, with at most `limit` containers open at once. -/
def read (limit : Nat) (text : String) : Except Fault Document := do
  match ← (Token.ofChars text.toList).foldlM (Reading.step limit) (.value []) with
  | .finished d => .ok d
  | _ => .error .endedEarly

/-- The nesting that files and texts of the host may have. -/
def nestingLimit : Nat := 127

/-- The document that a text of the host writes. -/
def ofText (text : String) : Except Fault Document := read nestingLimit text

end ExecutorHost.Document
