import ExecutorHost.Text.Hex
import ExecutorHost.Yaml.Cursor

/-!
# Scalars of a YAML text

A scalar is written plain, in single or double quotes, or as a block of lines. In the first three
forms the blanks around a line break fold: one break stands for a space, and of more breaks in a row
all but the first are kept. Every scan has a bound on its steps; the length of the text is enough.
-/

namespace ExecutorHost.Yaml

/-- The blanks and line breaks between two words of a scalar. -/
structure Gap where
  /-- The blanks before the first line break. -/
  blanks : List Char := []
  /-- There is a line break, or one that is skipped. -/
  broken : Bool := false
  /-- The first line break. -/
  first : List Char := []
  /-- The other line breaks. -/
  more : List Char := []
deriving Repr

namespace Gap

/-- What a gap stands for between two words. -/
def text (g : Gap) : List Char :=
  if !g.broken then g.blanks
  else if g.first == ['\n'] then (if g.more.isEmpty then [' '] else g.more)
  else g.first ++ g.more

/-- The gap with one more line break. -/
def addBreak (g : Gap) (c : Char) : Gap :=
  if g.broken then { g with more := g.more ++ [c] } else { g with broken := true, first := [c] }

/--
The gap that begins here. With a margin, a tab to the left of it on a new line is not allowed.
-/
def scan (margin : Option Int) : (bound : Nat) → Cursor → Gap → Option (Gap × Cursor)
  | 0, _, _ => none
  | bound + 1, c, g =>
    if c.sees isBlank then
      let misplaced := margin.any fun m => g.broken && c.sees (· == '\t') && (c.column : Int) < m
      if misplaced then none
      else if g.broken then scan margin bound c.next g
      else scan margin bound c.next { g with blanks := g.blanks ++ c.rest.take 1 }
    else if c.sees isBreak then scan margin bound c.nextLine (g.addBreak c.breakChar)
    else some (g, c)

end Gap

/-- How a scalar is written. -/
inductive ScalarStyle
  /-- Without any mark. -/
  | plain
  /-- In single or double quotes. -/
  | quoted
  /-- As a block of lines that stay as they are. -/
  | literal
  /-- As a block of lines that are folded. -/
  | folded
deriving DecidableEq, Repr, Inhabited

/-- A scanned scalar and the place behind it. -/
structure ScannedScalar where
  /-- The characters that the scalar stands for. -/
  chars : List Char
  /-- The place behind the scalar. -/
  cursor : Cursor
  /-- The place is on a line of its own, behind the last line of the scalar. -/
  onNewLine : Bool := false

/-! ## Plain scalars -/

/-- The characters that separate the parts of a flow collection. -/
def isFlowMark (c : Char) : Bool := c == ',' || c == '[' || c == ']' || c == '{' || c == '}'

/-- The word of a plain scalar that begins here; in a flow, some colons are not allowed. -/
def plainWord (inFlow : Bool) : List Char → Option (List Char)
  | [] => some []
  | c :: rest =>
    if isBlank c || isBreak c then some []
    else if c == ':' && inFlow && rest.head?.any (fun d => isFlowMark d || d == '?') then none
    else if c == ':' && endsWord rest then some []
    else if inFlow && isFlowMark c then some []
    else (plainWord inFlow rest).map (c :: ·)

/-- A plain scalar; on later lines it must stand at the margin or to the right of it. -/
def scanPlain (inFlow : Bool) (margin : Int) :
    (bound : Nat) → Cursor → (chars : List Char) → Gap → Option ScannedScalar
  | 0, _, _, _ => none
  | bound + 1, c, chars, gap => do
    let stop : ScannedScalar := ⟨chars, c, gap.broken⟩
    if c.atDocumentMarker || c.sees (· == '#') then return stop
    let word ← plainWord inFlow c.rest
    if word.isEmpty then return stop
    let chars := chars ++ gap.text ++ word
    let c := c.skip word.length
    let (gap, c) ← Gap.scan (some margin) bound c {}
    if !inFlow && (c.column : Int) < margin then return ⟨chars, c, gap.broken⟩
    scanPlain inFlow margin bound c chars gap

/-! ## Quoted scalars -/

/-- The characters of an escape that stands for one character. -/
def escapeChar? : Char → Option Char
  | '0' => some '\x00'
  | 'a' => some '\x07'
  | 'b' => some '\x08'
  | 't' => some '\t'
  | '\t' => some '\t'
  | 'n' => some '\n'
  | 'v' => some '\x0b'
  | 'f' => some '\x0c'
  | 'r' => some '\r'
  | 'e' => some '\x1b'
  | ' ' => some ' '
  | '"' => some '"'
  | '/' => some '/'
  | '\\' => some '\\'
  | 'N' => some '\u0085'
  | '_' => some '\u00a0'
  | 'L' => some '\u2028'
  | 'P' => some '\u2029'
  | _ => none

/-- The number of hexadecimal digits behind the letter of an escape by number. -/
def escapeWidth? : Char → Option Nat
  | 'x' => some 2
  | 'u' => some 4
  | 'U' => some 8
  | _ => none

/-- The escape whose letter and digits begin here, and the number of its characters. -/
def escape? : List Char → Option (Char × Nat)
  | [] => none
  | c :: rest =>
    match escapeWidth? c with
    | none => (escapeChar? c).map (·, 1)
    | some width => do
      let digits := rest.take width
      if digits.length < width then none
      let code ← Text.hexNumber? digits
      if code < 0x110000 && !(0xD800 ≤ code && code < 0xE000) then
        return (Char.ofNat code, width + 1)
      else none

/-- A run of characters inside quotes, up to a blank, a line break or the closing quote. -/
structure QuotedRun where
  /-- The characters that it stands for. -/
  chars : List Char
  /-- The place behind it. -/
  cursor : Cursor
  /-- It ends in a line break that is skipped. -/
  skippedBreak : Bool := false

/-- The run that begins here. -/
def quotedRun (double : Bool) : (bound : Nat) → Cursor → (chars : List Char) → Option QuotedRun
  | 0, _, _ => none
  | bound + 1, c, chars =>
    match c.rest with
    | [] => some ⟨chars, c, false⟩
    | a :: rest =>
      if isBlank a || isBreak a then some ⟨chars, c, false⟩
      else if !double && a == '\'' then
        if rest.head? == some '\'' then quotedRun double bound (c.skip 2) (chars ++ ['\''])
        else some ⟨chars, c, false⟩
      else if double && a == '"' then some ⟨chars, c, false⟩
      else if double && a == '\\' then
        if rest.head?.any isBreak then some ⟨chars, c.next.nextLine, true⟩
        else do
          let (e, length) ← escape? rest
          quotedRun double bound (c.skip (length + 1)) (chars ++ [e])
      else quotedRun double bound c.next (chars ++ [a])

/-- The rest of a scalar in quotes; it may not hold a mark between documents. -/
def scanQuoted (double : Bool) :
    (bound : Nat) → Cursor → (chars : List Char) → Option ScannedScalar
  | 0, _, _ => none
  | bound + 1, c, chars => do
    if c.atDocumentMarker then none
    let run ← quotedRun double (bound + 1) c chars
    let c := run.cursor
    if c.rest.isEmpty then none
    if !run.skippedBreak && c.sees (· == if double then '"' else '\'') then
      return ⟨run.chars, c.next, false⟩
    let (gap, c) ← Gap.scan none (bound + 1) c { broken := run.skippedBreak }
    scanQuoted double bound c (run.chars ++ gap.text)

/-! ## Block scalars -/

/-- What becomes of the line breaks at the end of a block. -/
inductive Chomping
  /-- The last line break stays. -/
  | clip
  /-- No line break stays. -/
  | strip
  /-- All line breaks stay. -/
  | keep
deriving DecidableEq, Repr

/-- The head of a block: what becomes of its last breaks, and its indentation if it is given. -/
structure BlockHead where
  /-- What becomes of the line breaks at the end. -/
  chomping : Chomping := .clip
  /-- The indentation, relative to the block around. -/
  indentation : Option Nat := none

/-- The marks behind the indicator of a block, each at most once, in any order. -/
def blockHead (c : Cursor) : Option (BlockHead × Cursor) :=
  let chomping? (c : Cursor) : Option Chomping := match c.rest with
    | '+' :: _ => some .keep
    | '-' :: _ => some .strip
    | _ => none
  let digit? (c : Cursor) : Option Nat := match c.rest with
    | d :: _ => if d.isDigit then some (d.toNat - '0'.toNat) else none
    | [] => none
  let head : BlockHead × Cursor := match chomping? c with
    | some chomping =>
      match digit? c.next with
      | some d => (⟨chomping, some d⟩, c.skip 2)
      | none => (⟨chomping, none⟩, c.next)
    | none =>
      match digit? c with
      | some d =>
        match chomping? c.next with
        | some chomping => (⟨chomping, some d⟩, c.skip 2)
        | none => (⟨.clip, some d⟩, c.next)
      | none => ({}, c)
  if head.1.indentation == some 0 then none else some head

/-- The indentation of a block that gives none: that of its first line with text, within bounds. -/
def foundIndentation (around : Int) (widest : Nat) : Nat :=
  max (max widest (around + 1).toNat) 1

/--
The empty lines in front: their breaks, the place behind them and the widest indentation seen.
-/
def blockBreaks (indentation : Option Nat) :
    (bound : Nat) → Cursor → (breaks : List Char) → (widest : Nat) →
      Option (List Char × Cursor × Nat)
  | 0, _, _, _ => none
  | bound + 1, c, breaks, widest =>
    let room := match indentation with
      | some n => n - c.column
      | none => c.rest.length
    let c := c.skip ((c.leading (· == ' ')).take room).length
    let widest := max widest c.column
    let inside := indentation.all fun n => c.column < n
    if inside && c.sees (· == '\t') then none
    else if c.sees isBreak then
      blockBreaks indentation bound c.nextLine (breaks ++ [c.breakChar]) widest
    else some (breaks, c, widest)

/-- A block being read: its characters, its last line break and the breaks of empty lines behind. -/
structure BlockLines where
  /-- The characters so far. -/
  chars : List Char := []
  /-- The line break behind the last line. -/
  last : List Char := []
  /-- The line breaks of the empty lines behind it. -/
  empty : List Char := []
  /-- The last line begins with a blank. -/
  blankBefore : Bool := false

/-- The lines of a block that stand at its indentation. -/
def blockLines (folded : Bool) (indentation : Nat) :
    (bound : Nat) → Cursor → BlockLines → Option (BlockLines × Cursor)
  | 0, _, _ => none
  | bound + 1, c, b => do
    if c.column != indentation || c.rest.isEmpty then return (b, c)
    let blank := c.sees isBlank
    let joined :=
      if folded && b.last == ['\n'] && !b.blankBefore && !blank then
        if b.empty.isEmpty then [' '] else b.empty
      else b.last ++ b.empty
    let line := c.leading (!isBreak ·)
    let c := c.skip line.length
    let chars := b.chars ++ joined ++ line
    if c.rest.isEmpty then return (⟨chars, [], [], blank⟩, c)
    let (breaks, behind, _) ← blockBreaks (some indentation) (bound + 1) c.nextLine [] 0
    blockLines folded indentation bound behind ⟨chars, [c.breakChar], breaks, blank⟩

/-- A scalar written as a block of lines, from behind its indicator on. -/
def scanBlock (folded : Bool) (around : Int) (c : Cursor) : Option ScannedScalar := do
  let bound := c.rest.length + 2
  let (head, c) ← blockHead c
  let c := c.skipWhile isBlank
  let c := if c.sees (· == '#') then c.skipWhile (!isBreak ·) else c
  if !endsLine c.rest then none
  let c := if c.rest.isEmpty then c else c.nextLine
  let given := head.indentation.map fun n => (max around 0).toNat + n
  let (breaks, c, widest) ← blockBreaks given bound c [] 0
  let indentation := given.getD (foundIndentation around widest)
  let (b, c) ← blockLines folded indentation bound c { empty := breaks }
  let ending := match head.chomping with
    | .strip => []
    | .clip => b.last
    | .keep => b.last ++ b.empty
  return ⟨b.chars ++ ending, c, true⟩

end ExecutorHost.Yaml
