import ExecutorHost.Text.Hex
import ExecutorHost.Yaml.Cursor

/-!
# Tags of YAML nodes

A tag says of what kind a node is. It is written in full between angle brackets, or as a handle and
the rest of the tag; what a handle stands for is declared in front of the document. A tag may hold
bytes that are given by number, so it is a list of bytes and need not be a text.
-/

namespace ExecutorHost.Yaml

/-- The bytes of a tag. -/
abbrev Tag := List UInt8

namespace Tag

/-- The tag that a text writes. -/
def ofText (text : String) : Tag := text.toUTF8.data.toList

/-- The start of the tags of the standard kinds. -/
def standardStart : String := "tag:yaml.org,2002:"

/-- The tag of truth values. -/
def truth : Tag := ofText (standardStart ++ "bool")

/-! ## Characters -/

/-- A character of a name. -/
def isNameChar (c : Char) : Bool := c.isAlphanum || c == '_' || c == '-'

/-- A character of a tag; the separators only where a tag is written in full. -/
def isTagChar (separators : Bool) (c : Char) : Bool :=
  isNameChar c ||
    c ∈ [';', '/', '?', ':', '@', '&', '=', '+', '$', '.', '%', '!', '~', '*', '\'', '(', ')'] ||
    (separators && c ∈ [',', '[', ']'])

/-- The byte given by number that begins here. -/
def numberedByte? : List Char → Option UInt8
  | '%' :: high :: low :: _ => (Text.hexNumber? [high, low]).map (·.toUInt8)
  | _ => none

/-- The number of bytes of the character that a byte begins. -/
def bytesFrom? (first : UInt8) : Option Nat :=
  if first < 0x80 then some 1
  else if first < 0xC0 then none
  else if first < 0xE0 then some 2
  else if first < 0xF0 then some 3
  else if first < 0xF8 then some 4
  else none

/-- A number of bytes given by number that continue a character. -/
def continuingBytes? : (count : Nat) → Cursor → Option (Tag × Cursor)
  | 0, c => some ([], c)
  | count + 1, c => do
    let byte ← numberedByte? c.rest
    if byte < 0x80 || 0xC0 ≤ byte then none
    let (bytes, behind) ← continuingBytes? count (c.skip 3)
    return (byte :: bytes, behind)

/-- The bytes given by number of one character. -/
def numberedChar? (c : Cursor) : Option (Tag × Cursor) := do
  let first ← numberedByte? c.rest
  let count ← bytesFrom? first
  let (bytes, behind) ← continuingBytes? (count - 1) (c.skip 3)
  return (first :: bytes, behind)

/-- The bytes of the tag characters that begin here. -/
def scanChars (separators : Bool) : (bound : Nat) → Cursor → Option (Tag × Cursor)
  | 0, _ => none
  | bound + 1, c =>
    match c.rest with
    | [] => some ([], c)
    | first :: _ =>
      if !isTagChar separators first then some ([], c)
      else do
        let (bytes, next) ← if first == '%' then numberedChar? c
          else some ([first.toNat.toUInt8], c.next)
        let (more, behind) ← scanChars separators bound next
        return (bytes ++ more, behind)

/-- The part of a tag that begins here, which may not be empty; it ends in front of a zero byte. -/
def scanPart (separators : Bool) (c : Cursor) : Option (Tag × Cursor) := do
  let (bytes, behind) ← scanChars separators (c.rest.length + 1) c
  if bytes.isEmpty then none
  return (bytes.takeWhile (· ≠ 0), behind)

/-! ## Written tags -/

/-- A tag as it is written: its handle, which is empty if it is written in full, and the rest. -/
structure Written where
  /-- The handle. -/
  handle : String
  /-- The rest. -/
  rest : Tag
deriving DecidableEq, Repr, Inhabited

/-- The handle that begins here: an exclamation mark, and maybe a name and another one. -/
def leadingHandle (c : Cursor) : Option (List Char) :=
  match c.rest with
  | '!' :: rest =>
    let name := rest.takeWhile isNameChar
    let last := (rest.drop name.length).take 1
    some ('!' :: name ++ if last == ['!'] then last else [])
  | _ => none

/-- A handle that ends in an exclamation mark of its own. -/
def isClosed (handle : List Char) : Bool := 1 < handle.length && handle.getLast? == some '!'

/-- A tag in full, between angle brackets. -/
def scanFull (c : Cursor) : Option (Written × Cursor) := do
  let (rest, behind) ← scanPart true (c.skip 2)
  if behind.rest.head? != some '>' then none
  return (⟨"", rest⟩, behind.next)

/-- A tag without brackets. With no handle of its own it has that of a single exclamation mark. -/
def scanShort (c : Cursor) : Option (Written × Cursor) := do
  let handle ← leadingHandle c
  if isClosed handle then
    let (rest, behind) ← scanPart false (c.skip handle.length)
    return (⟨String.ofList handle, rest⟩, behind)
  let (rest, behind) ← scanChars false (c.rest.length + 1) c.next
  let rest := rest.takeWhile (· ≠ 0)
  return (if rest.isEmpty then ⟨"", ofText "!"⟩ else ⟨"!", rest⟩, behind)

/-- The tag that begins here. Behind it follows a blank or a line break, or a comma in a flow. -/
def scan (inFlow : Bool) (c : Cursor) : Option (Written × Cursor) := do
  let (written, behind) ← if c.rest[1]? == some '<' then scanFull c else scanShort c
  if (inFlow && behind.rest.head? == some ',') || endsWord behind.rest then
    return (written, behind)
  else none

/-! ## Handles -/

/-- What handles stand for, the latest declaration first. -/
abbrev Handles := List (String × Tag)

/-- What handles stand for that are not declared. -/
def standardHandles : Handles := [("!", ofText "!"), ("!!", ofText standardStart)]

/-- The tag that is written, if its handle is known. -/
def Written.tag? (handles : Handles) (w : Written) : Option Tag :=
  if w.handle.isEmpty then some w.rest
  else (handles.lookup w.handle).map (· ++ w.rest)

/-- The declaration of a handle that begins here, from behind its name on. -/
def scanDeclaration (c : Cursor) : Option ((String × Tag) × Cursor) := do
  let c := c.skipWhile isBlank
  let handle ← leadingHandle c
  if !isClosed handle && handle != ['!'] then none
  let c := c.skip handle.length
  if !c.sees isBlank then none
  let (start, behind) ← scanPart true (c.skipWhile isBlank)
  if endsWord behind.rest then return ((String.ofList handle, start), behind) else none

end Tag

end ExecutorHost.Yaml
