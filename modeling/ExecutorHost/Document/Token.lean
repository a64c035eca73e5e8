import ExecutorHost.Decimal.Reading
import ExecutorHost.Document.Basic

/-!
# Tokens of a written document

The characters of a text are grouped into tokens; blanks between them are dropped. Text that is no
token becomes a broken token, which carries what is wrong and whether it began as a quoted text, and
ends the list. Whether a broken token matters, and which fault it is there, depends on where it
stands, so the reader of the document decides that.
-/

namespace ExecutorHost.Document

/-- Why a text is not a document. -/
inductive Fault
  /-- The text breaks the grammar of documents, or a number or the nesting is out of range. -/
  | malformed
  /-- The text ends before the document does. -/
  | endedEarly
deriving DecidableEq, Repr

/-- A token of a written document. -/
inductive Token
  /-- An opening square bracket. -/
  | openArray
  /-- A closing square bracket. -/
  | closeArray
  /-- An opening brace. -/
  | openObject
  /-- A closing brace. -/
  | closeObject
  /-- A comma. -/
  | comma
  /-- A colon. -/
  | colon
  /-- A quoted text, without its quotes and escapes. -/
  | quoted (text : String)
  /-- A word or a number. -/
  | scalar (value : Document)
  /-- What begins here is no token; `startsQuoted` if it begins with a quote. -/
  | broken (fault : Fault) (startsQuoted : Bool)
deriving Repr

namespace Token

/-- A blank of the format. -/
def isBlank (c : Char) : Bool := c = ' ' || c = '\t' || c = '\n' || c = '\r'

/-! ## Numbers -/

/-- The decimal digits in front. -/
def leadingDigits (cs : List Char) : List Char := cs.takeWhile Char.isDigit

/-- A part of a number that must have a digit: its digits, or the fault. -/
def requiredDigits (cs : List Char) : Except Fault (List Char) :=
  match leadingDigits cs, cs with
  | [], [] => .error .endedEarly
  | [], _ :: _ => .error .malformed
  | digits, _ => .ok digits

/--
The number of the grammar's parts; a number without fraction and exponent stays whole if it fits. A
double that is too large is no number.
-/
def numberOf? (negative : Bool) (whole fraction : List Char) (exponent : Option Int) :
    Option Number :=
  let signed (x : Binary64) : Number := .real (if negative then x.neg else x)
  let (n, dropped) := Decimal.takeWhole 0 whole
  if fraction.isEmpty && exponent.isNone && dropped == 0 then
    if !negative then some (.whole n)
    else if n = 0 ∨ 0x8000000000000000 < n then some (signed (Binary64.nearest n 1))
    else some (.whole (-n))
  else
    let (n, taken) := Decimal.takeFraction n fraction
    (Decimal.withExponent? n (dropped - taken) (exponent.getD 0)).map signed

/-- The number that decimal digits write. -/
def digitsNumber (digits : List Char) : Nat :=
  digits.foldl (fun total c => 10 * total + Decimal.digitValue c) 0

/-- The exponent behind its letter, if there is one: its value and the number of characters. -/
def scanExponent (cs : List Char) : Except Fault (Option (Int × Nat)) :=
  match cs with
  | letter :: rest =>
    if letter = 'e' ∨ letter = 'E' then do
      let (negative, skip) := match rest with
        | '-' :: _ => (true, 1)
        | '+' :: _ => (false, 1)
        | _ => (false, 0)
      let digits ← requiredDigits (rest.drop skip)
      let value : Int := digitsNumber digits
      return some (if negative then -value else value, 1 + skip + digits.length)
    else .ok none
  | [] => .ok none

/--
A number from its first digit on: the number and how many characters it takes. A leading zero is
the whole integer part. A fraction or an exponent that overflows the doubles is malformed.
-/
def scanNumber (negative : Bool) (cs : List Char) : Except Fault (Number × Nat) := do
  let whole ← requiredDigits cs
  if whole.length > 1 ∧ whole.head? = some '0' then .error .malformed
  let behind := cs.drop whole.length
  let fraction ← match behind with
    | '.' :: rest => (requiredDigits rest).map some
    | _ => .ok none
  let pointLength := match fraction with
    | some digits => digits.length + 1
    | none => 0
  let exponent ← scanExponent (behind.drop pointLength)
  match numberOf? negative whole (fraction.getD []) (exponent.map (·.1)) with
  | some n => .ok (n, whole.length + pointLength + (exponent.map (·.2)).getD 0)
  | none => .error .malformed

/-! ## Words -/

/-- The rest of a word; text that ends inside the word ended early. -/
def scanWord : (word text : List Char) → Except Fault Unit
  | [], _ => .ok ()
  | _ :: _, [] => .error .endedEarly
  | w :: word, c :: text => if w = c then scanWord word text else .error .malformed

/-! ## Quoted text -/

/-- The code unit that four hexadecimal digits write. -/
def codeUnit? (digits : List Char) : Option Nat :=
  if digits.length = 4 then
    digits.foldlM (fun total c =>
      (if c.isDigit then some (c.toNat - '0'.toNat)
       else if 'a' ≤ c ∧ c ≤ 'f' then some (c.toNat - 'a'.toNat + 10)
       else if 'A' ≤ c ∧ c ≤ 'F' then some (c.toNat - 'A'.toNat + 10)
       else none).map (16 * total + ·)) 0
  else none

/--
The code unit behind an escape. If fewer than four bytes of text are left the text ended early,
whatever they are.
-/
def readCodeUnit (cs : List Char) : Except Fault Nat :=
  if (String.ofList (cs.take 4)).utf8ByteSize < 4 then .error .endedEarly
  else match codeUnit? (cs.take 4) with
    | some unit => .ok unit
    | none => .error .malformed

/-- A first half of a pair of code units. -/
def isLeadUnit (unit : Nat) : Bool := 0xD800 ≤ unit && unit < 0xDC00

/-- A second half of a pair of code units. -/
def isTrailUnit (unit : Nat) : Bool := 0xDC00 ≤ unit && unit < 0xE000

/--
The character of an escaped code unit and how many characters it takes after the `u`. The first
half of a pair must be followed by an escaped second half.
-/
def scanCodeUnits (cs : List Char) : Except Fault (Char × Nat) := do
  let unit ← readCodeUnit cs
  if isTrailUnit unit then .error .malformed
  else if isLeadUnit unit then
    match cs.drop 4 with
    | '\\' :: 'u' :: rest =>
      let trail ← readCodeUnit rest
      if isTrailUnit trail then
        .ok (Char.ofNat (0x10000 + (unit - 0xD800) * 0x400 + (trail - 0xDC00)), 10)
      else .error .malformed
    | [] | ['\\'] => .error .endedEarly
    | _ => .error .malformed
  else .ok (Char.ofNat unit, 4)

/-- The character of a one-letter escape. -/
def shortEscape? (c : Char) : Option Char :=
  match c with
  | '"' => some '"'
  | '\\' => some '\\'
  | '/' => some '/'
  | 'b' => some '\x08'
  | 'f' => some '\x0c'
  | 'n' => some '\n'
  | 'r' => some '\r'
  | 't' => some '\t'
  | _ => none

/--
The text up to the closing quote and how many characters it takes with that quote. `taken` counts
the characters read so far, and `read` holds the text so far, last character first.
-/
def scanQuoted (taken : Nat) (read : List Char) : List Char → Except Fault (String × Nat)
  | [] => .error .endedEarly
  | '"' :: _ => .ok (String.ofList read.reverse, taken + 1)
  | ['\\'] => .error .endedEarly
  | '\\' :: 'u' :: rest =>
    match scanCodeUnits rest with
    | .error fault => .error fault
    | .ok (c, length) => scanQuoted (taken + 2 + length) (c :: read) (rest.drop length)
  | '\\' :: letter :: rest =>
    match shortEscape? letter with
    | some c => scanQuoted (taken + 2) (c :: read) rest
    | none => .error .malformed
  | c :: rest =>
    if c.toNat < 32 then .error .malformed else scanQuoted (taken + 1) (c :: read) rest
termination_by cs => cs.length

/-! ## The token list -/

/-- The token that begins with a character, and how many characters behind it belong to it. -/
def scan (c : Char) (rest : List Char) : Token × Nat :=
  let number (negative : Bool) (cs : List Char) (before : Nat) : Token × Nat :=
    match scanNumber negative cs with
    | .ok (n, length) => (.scalar (.number n), before + length - 1)
    | .error fault => (.broken fault false, 0)
  let word (tail : String) (value : Document) : Token × Nat :=
    match scanWord tail.toList rest with
    | .ok () => (.scalar value, tail.length)
    | .error fault => (.broken fault false, 0)
  match c with
  | '[' => (.openArray, 0)
  | ']' => (.closeArray, 0)
  | '\x7b' => (.openObject, 0)
  | '\x7d' => (.closeObject, 0)
  | ',' => (.comma, 0)
  | ':' => (.colon, 0)
  | '"' =>
    match scanQuoted 0 [] rest with
    | .ok (text, length) => (.quoted text, length)
    | .error fault => (.broken fault true, 0)
  | 'n' => word "ull" .null
  | 't' => word "rue" (.bool true)
  | 'f' => word "alse" (.bool false)
  | '-' => number true rest 1
  | _ => if c.isDigit then number false (c :: rest) 0 else (.broken .malformed false, 0)

/-- The tokens of a text, up to and including the first broken one. -/
def ofChars : List Char → List Token
  | [] => []
  | c :: rest =>
    if isBlank c then ofChars rest
    else
      let (token, length) := scan c rest
      match token with
      | .broken .. => [token]
      | _ => token :: ofChars (rest.drop length)
termination_by cs => cs.length

end Token

end ExecutorHost.Document
