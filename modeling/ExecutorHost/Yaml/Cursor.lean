/-!
# Places in a YAML text

A cursor is the rest of a text together with the place where it stands. Moving it on keeps count of
bytes, lines and columns; the column decides how the blocks of a text nest.
-/

namespace ExecutorHost.Yaml

/-- The rest of a text and the place where it begins. -/
structure Cursor where
  /-- The characters from here on. -/
  rest : List Char
  /-- The number of bytes before. -/
  index : Nat := 0
  /-- The number of lines before. -/
  line : Nat := 0
  /-- The number of characters before on the same line. -/
  column : Nat := 0
deriving Repr

/-- A blank inside a line. -/
def isBlank (c : Char) : Bool := c == ' ' || c == '\t'

/-- A character that ends a line. -/
def isBreak (c : Char) : Bool :=
  c == '\n' || c == '\r' || c == '\u0085' || c == '\u2028' || c == '\u2029'

/-- A text ends here, or goes on with a blank or a line break. -/
def endsWord : List Char → Bool
  | [] => true
  | c :: _ => isBlank c || isBreak c

/-- A line holds nothing more here. -/
def endsLine : List Char → Bool
  | [] => true
  | c :: _ => isBreak c

/-- A character that a text may hold. -/
def isAllowed (c : Char) : Bool :=
  c == '\t' || c == '\n' || c == '\r' || ('\u0020' ≤ c && c ≤ '\u007e') || c == '\u0085' ||
    ('\u00a0' ≤ c && c != '\ufffe' && c != '\uffff')

/-- The mark that may stand in front of a line to tell the encoding. -/
def isEncodingMark (c : Char) : Bool := c == '\ufeff'

namespace Cursor

/-- The start of a text. -/
def ofText (text : String) : Cursor := { rest := text.toList }

/-- One character further on the same line. -/
def next (c : Cursor) : Cursor :=
  match c.rest with
  | [] => c
  | first :: rest =>
    { c with rest, index := c.index + first.utf8Size, column := c.column + 1 }

/-- A number of characters further on the same line. -/
def skip (c : Cursor) : (count : Nat) → Cursor
  | 0 => c
  | count + 1 => skip c.next count

/-- The characters in front that satisfy a condition. -/
def leading (c : Cursor) (p : Char → Bool) : List Char := c.rest.takeWhile p

/-- The cursor behind the characters that satisfy a condition. -/
def skipWhile (c : Cursor) (p : Char → Bool) : Cursor := c.skip (c.leading p).length

/-- The first character satisfies a condition. -/
def sees (c : Cursor) (p : Char → Bool) : Bool := c.rest.head?.any p

/-- The start of the next line, behind a line break. -/
def nextLine (c : Cursor) : Cursor :=
  let length := match c.rest with
    | '\r' :: '\n' :: _ => 2
    | _ => 1
  { c.skip length with line := c.line + 1, column := 0 }

/-- What the line break in front stands for: the two that separate lines or paragraphs stay. -/
def breakChar (c : Cursor) : Char :=
  match c.rest with
  | '\u2028' :: _ => '\u2028'
  | '\u2029' :: _ => '\u2029'
  | _ => '\n'

/-- A line begins here with this word, which stands alone. -/
def atMarker (c : Cursor) (marker : List Char) : Bool :=
  c.column == 0 && marker.isPrefixOf c.rest && endsWord (c.rest.drop marker.length)

/-- A line begins here with one of the two marks between documents. -/
def atDocumentMarker (c : Cursor) : Bool :=
  c.atMarker ['-', '-', '-'] || c.atMarker ['.', '.', '.']

end Cursor

end ExecutorHost.Yaml
