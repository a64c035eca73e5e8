import ExecutorHost.Yaml.Scalar
import ExecutorHost.Yaml.Tag

/-!
# Tokens of a YAML text

The marks and scalars of a text in order, with the ends of indented blocks made explicit. That a
scalar or a collection is a key shows only at the colon behind it. So the place of a possible key is
remembered, and when the colon comes the mark of a key is put there afterwards.
-/

namespace ExecutorHost.Yaml

/-- A token of a text. -/
inductive Token
  /-- The mark in front of a document. -/
  | documentStart
  /-- The mark behind a document. -/
  | documentEnd
  /-- The version of the format, in front of a document. -/
  | version
  /-- What a tag handle stands for, in front of a document. -/
  | handle (name : String) (start : Tag)
  /-- A list of indented entries begins. -/
  | blockSequence
  /-- A mapping of indented entries begins. -/
  | blockMapping
  /-- An indented list or mapping ends. -/
  | blockEnd
  /-- A list in brackets begins. -/
  | flowSequence
  /-- A list in brackets ends. -/
  | flowSequenceEnd
  /-- A mapping in braces begins. -/
  | flowMapping
  /-- A mapping in braces ends. -/
  | flowMappingEnd
  /-- The mark of an indented list entry. -/
  | entry
  /-- A comma inside brackets or braces. -/
  | comma
  /-- What follows is a key. -/
  | key
  /-- What follows is a value. -/
  | value
  /-- A name for the node that follows. -/
  | anchor (name : String)
  /-- The node of a name again. -/
  | alias (name : String)
  /-- A tag for the node that follows. -/
  | tag (written : Tag.Written)
  /-- A scalar. -/
  | scalar (text : String) (style : ScalarStyle)
deriving DecidableEq, Repr, Inhabited

/-- The place of a token that may turn out to be a key. -/
structure KeyPlace where
  /-- There is such a token; only a later colon on the same line makes it a key. -/
  possible : Bool := false
  /-- It stands where an indented mapping needs a key. -/
  required : Bool := false
  /-- The number of tokens before it. -/
  token : Nat := 0
  /-- Where its text begins. -/
  start : Cursor := { rest := [] }

/-- The state of a scan. -/
structure Scanner where
  /-- The place reached. -/
  cursor : Cursor
  /-- The tokens so far. -/
  tokens : Array Token := #[]
  /-- The column of the block around; one less than the first column outside of all blocks. -/
  indent : Int := -1
  /-- The columns of the blocks further out. -/
  outer : List Int := []
  /-- The place of a possible key, in the brackets and braces around. -/
  key : KeyPlace := {}
  /-- The same for each pair of brackets or braces further out. -/
  outerKeys : List KeyPlace := []
  /-- A key may stand here. -/
  keyAllowed : Bool := true

namespace Scanner

/-- The scan is inside brackets or braces. -/
def inFlow (s : Scanner) : Bool := !s.outerKeys.isEmpty

/-- The scan with one more token. -/
def emit (s : Scanner) (t : Token) : Scanner := { s with tokens := s.tokens.push t }

/-- The scan with a token put in front of the tokens from a number on. -/
def emitAt (s : Scanner) (place : Nat) (t : Token) : Scanner :=
  { s with tokens := (s.tokens.extract 0 place).push t ++ s.tokens.extract place s.tokens.size }

/-- The scan moved on. -/
def moved (s : Scanner) (c : Cursor) : Scanner := { s with cursor := c }

/-- The scan with a key allowed next, or not. -/
def allowing (s : Scanner) (allowed : Bool) : Scanner := { s with keyAllowed := allowed }

/-! ## Blocks -/

/-- An indented block begun at a column to the right of the block around. -/
def openBlock (s : Scanner) (column : Nat) (place : Nat) (t : Token) : Scanner :=
  if !s.inFlow && s.indent < column then
    { s.emitAt place t with indent := column, outer := s.indent :: s.outer }
  else s

/-- The indented blocks ended that stand to the right of a column. -/
def closeBlocks (s : Scanner) (column : Int) : Scanner :=
  if s.inFlow then s else go s.outer s
where
  /-- The blocks ended one after another. -/
  go : List Int → Scanner → Scanner
    | [], s => s
    | around :: outer, s =>
      if column < s.indent then go outer { s.emit .blockEnd with indent := around, outer }
      else s

/-! ## Possible keys -/

/-- The most bytes of a key that has no mark. -/
def keyLimit : Nat := 1024

/-- A possible key given up, which must not be needed. -/
def forget (k : KeyPlace) : Option KeyPlace :=
  if k.possible && k.required then none else some { k with possible := false }

/-- The possible key given up. -/
def forgetKey (s : Scanner) : Option Scanner := return { s with key := ← forget s.key }

/-- A possible key given up if it is on an earlier line or too far away. -/
def stale (here : Cursor) (k : KeyPlace) : Option KeyPlace :=
  if k.possible && (k.start.line < here.line || k.start.index + keyLimit < here.index) then
    forget k
  else some k

/-- The possible keys given up that can be none any more. -/
def dropStaleKeys (s : Scanner) : Option Scanner := do
  return { s with
    key := ← stale s.cursor s.key
    outerKeys := ← s.outerKeys.mapM (stale s.cursor) }

/-- The token that comes next remembered as a possible key, where one may stand. -/
def rememberKey (s : Scanner) : Option Scanner := do
  if !s.keyAllowed then return s
  let s ← s.forgetKey
  let required := !s.inFlow && s.indent == s.cursor.column
  return { s with key := ⟨true, required, s.tokens.size, s.cursor⟩ }

/-! ## Between tokens -/

/-- The scan behind blanks, comments and line breaks. -/
def skipBlanks : (bound : Nat) → Scanner → Scanner
  | 0, s => s
  | bound + 1, s =>
    let c := s.cursor
    if c.column == 0 && c.sees isEncodingMark then skipBlanks bound (s.moved c.next)
    else if c.sees (· == ' ') || ((s.inFlow || !s.keyAllowed) && c.sees (· == '\t')) then
      skipBlanks bound (s.moved c.next)
    else if c.sees (· == '#') then skipBlanks bound (s.moved (c.skipWhile (!isBreak ·)))
    else if c.sees isBreak then
      skipBlanks bound { s with cursor := c.nextLine, keyAllowed := s.keyAllowed || !s.inFlow }
    else s

/-! ## Single tokens -/

/-- A mark between documents, which ends all blocks. -/
def scanDocumentMark (s : Scanner) (t : Token) : Option Scanner := do
  let s ← (s.closeBlocks (-1)).forgetKey
  return ((s.allowing false).emit t).moved (s.cursor.skip 3)

/-- The most digits of a number in a version. -/
def versionDigits : Nat := 9

/-- The number in a version that begins here. -/
def versionNumber (c : Cursor) : Option (Nat × Cursor) :=
  let digits := c.leading Char.isDigit
  if digits.isEmpty || versionDigits < digits.length then none
  else some (digits.foldl (fun n d => 10 * n + (d.toNat - '0'.toNat)) 0, c.skip digits.length)

/-- A known version of the format, from behind the name of its remark on. -/
def scanVersion (c : Cursor) : Option Cursor := do
  let (major, c) ← versionNumber (c.skipWhile isBlank)
  if !c.sees (· == '.') then none
  let (minor, c) ← versionNumber c.next
  if major == 1 && (minor == 1 || minor == 2) then return c else none

/-- The end of a line that holds nothing more than a comment, with its line break. -/
def endOfLine (c : Cursor) : Option Cursor :=
  let c := c.skipWhile isBlank
  let c := if c.sees (· == '#') then c.skipWhile (!isBreak ·) else c
  if c.rest.isEmpty then some c
  else if c.sees isBreak then some c.nextLine
  else none

/-- A remark to the reader: the version of the format or what a tag handle stands for. -/
def scanDirective (s : Scanner) : Option Scanner := do
  let s ← (s.closeBlocks (-1)).forgetKey
  let name := s.cursor.next.leading Tag.isNameChar
  let c := s.cursor.next.skip name.length
  if !endsWord c.rest then none
  let (token, c) ← match String.ofList name with
    | "YAML" => (scanVersion c).map fun c => (Token.version, c)
    | "TAG" => (Tag.scanDeclaration c).map fun ((handle, start), c) => (.handle handle start, c)
    | _ => none
  return ((s.allowing false).emit token).moved (← endOfLine c)

/-- An opening bracket or brace. -/
def scanFlowStart (s : Scanner) (t : Token) : Option Scanner := do
  let s ← s.rememberKey
  return { s.emit t with
    cursor := s.cursor.next, key := {}, outerKeys := s.key :: s.outerKeys, keyAllowed := true }

/-- A closing bracket or brace. -/
def scanFlowEnd (s : Scanner) (t : Token) : Option Scanner := do
  let s ← s.forgetKey
  let (key, outerKeys) := match s.outerKeys with
    | [] => (s.key, [])
    | key :: outer => (key, outer)
  return { s.emit t with cursor := s.cursor.next, key, outerKeys, keyAllowed := false }

/-- A comma. -/
def scanComma (s : Scanner) : Option Scanner := do
  let s ← s.forgetKey
  return ((s.allowing true).emit .comma).moved s.cursor.next

/-- The mark of a list entry, which begins a list where there is none. -/
def scanEntry (s : Scanner) : Option Scanner := do
  if !s.inFlow && !s.keyAllowed then none
  let s ← (s.openBlock s.cursor.column s.tokens.size .blockSequence).forgetKey
  return ((s.allowing true).emit .entry).moved s.cursor.next

/-- The mark of a key. -/
def scanKey (s : Scanner) : Option Scanner := do
  if !s.inFlow && !s.keyAllowed then none
  let s ← (s.openBlock s.cursor.column s.tokens.size .blockMapping).forgetKey
  return ((s.allowing !s.inFlow).emit .key).moved s.cursor.next

/-- The mark of a value, which makes the possible key a key. -/
def scanValue (s : Scanner) : Option Scanner := do
  let s ←
    if s.key.possible then
      let marked := s.emitAt s.key.token .key
      let opened := marked.openBlock s.key.start.column s.key.token .blockMapping
      some { opened with key := { opened.key with possible := false }, keyAllowed := false }
    else if !s.inFlow && !s.keyAllowed then none
    else
      some ((s.openBlock s.cursor.column s.tokens.size .blockMapping).allowing !s.inFlow)
  return (s.emit .value).moved s.cursor.next

/-- What may stand directly behind the name of an anchor. -/
def endsName (cs : List Char) : Bool :=
  endsWord cs || cs.head?.any fun c => c ∈ ['?', ':', ',', ']', '}', '%', '@', chr 0x60]
where
  /-- The character of a code point. -/
  chr (n : Nat) : Char := Char.ofNat n

/-- An anchor or an alias: an indicator and a name. -/
def scanName (s : Scanner) (token : String → Token) : Option Scanner := do
  let s ← s.rememberKey
  let c := s.cursor.next
  let name := c.leading Tag.isNameChar
  let c := c.skip name.length
  if name.isEmpty || !endsName c.rest then none
  return ((s.allowing false).emit (token (String.ofList name))).moved c

/-- A tag. -/
def scanTag (s : Scanner) : Option Scanner := do
  let s ← s.rememberKey
  let (written, c) ← Tag.scan s.inFlow s.cursor
  return ((s.allowing false).emit (.tag written)).moved c

/-- A block of lines. -/
def scanBlockScalar (s : Scanner) (folded : Bool) : Option Scanner := do
  let s ← s.forgetKey
  let scalar ← scanBlock folded s.indent s.cursor.next
  let style := if folded then ScalarStyle.folded else .literal
  return ((s.allowing true).emit (.scalar (String.ofList scalar.chars) style)).moved scalar.cursor

/-- A scalar in quotes. -/
def scanQuotedScalar (s : Scanner) (double : Bool) : Option Scanner := do
  let s ← s.rememberKey
  let scalar ← scanQuoted double (s.cursor.rest.length + 1) s.cursor.next []
  let token := Token.scalar (String.ofList scalar.chars) .quoted
  return ((s.allowing false).emit token).moved scalar.cursor

/-- A plain scalar. -/
def scanPlainScalar (s : Scanner) : Option Scanner := do
  let s ← s.rememberKey
  let scalar ← scanPlain s.inFlow (s.indent + 1) (s.cursor.rest.length + 1) s.cursor [] {}
  let s := s.allowing scalar.onNewLine
  return (s.emit (.scalar (String.ofList scalar.chars) .plain)).moved scalar.cursor

/-- The characters that begin something other than a plain scalar. -/
def indicators : List Char :=
  ['-', '?', ':', ',', '[', ']', '{', '}', '#', '&', '*', '!', '|', '>', '\'', '"', '%', '@',
    Char.ofNat 0x60]

/-- A plain scalar may begin here. -/
def startsPlain (inFlow : Bool) (first : Char) (rest : List Char) : Bool :=
  (!(first ∈ indicators) && !isBlank first && !isBreak first) ||
    (first == '-' && !rest.head?.any isBlank) ||
    (!inFlow && (first == '?' || first == ':') && !endsWord rest)

/-- The token that begins with these characters. -/
def scanToken (s : Scanner) (first : Char) (rest : List Char) : Option Scanner :=
  let flow := s.inFlow
  if s.cursor.column == 0 && first == '%' then s.scanDirective
  else if s.cursor.atMarker ['-', '-', '-'] then s.scanDocumentMark .documentStart
  else if s.cursor.atMarker ['.', '.', '.'] then s.scanDocumentMark .documentEnd
  else if first == '[' then s.scanFlowStart .flowSequence
  else if first == '{' then s.scanFlowStart .flowMapping
  else if first == ']' then s.scanFlowEnd .flowSequenceEnd
  else if first == '}' then s.scanFlowEnd .flowMappingEnd
  else if first == ',' then s.scanComma
  else if first == '-' && endsWord rest then s.scanEntry
  else if first == '?' && (flow || endsWord rest) then s.scanKey
  else if first == ':' && (flow || endsWord rest) then s.scanValue
  else if first == '*' then s.scanName .alias
  else if first == '&' then s.scanName .anchor
  else if first == '!' then s.scanTag
  else if first == '|' && !flow then s.scanBlockScalar false
  else if first == '>' && !flow then s.scanBlockScalar true
  else if first == '\'' then s.scanQuotedScalar false
  else if first == '"' then s.scanQuotedScalar true
  else if startsPlain flow first rest then s.scanPlainScalar
  else none

/-- The scan to the end of the text, where all blocks end. -/
def run : (bound : Nat) → Scanner → Option (List Token)
  | 0, _ => none
  | bound + 1, s => do
    let s := s.skipBlanks (s.cursor.rest.length + 1)
    let s ← s.dropStaleKeys
    match s.cursor.rest with
    | [] => return (← (s.closeBlocks (-1)).forgetKey).tokens.toList
    | first :: rest =>
      run bound (← (s.closeBlocks s.cursor.column).scanToken first rest)

end Scanner

/-- The tokens of a text, if it is well formed so far. -/
def tokens? (text : String) : Option (List Token) :=
  if text.toList.all isAllowed then
    Scanner.run (text.length + 2) { cursor := Cursor.ofText text }
  else none

end ExecutorHost.Yaml
