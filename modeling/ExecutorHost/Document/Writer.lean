import ExecutorHost.Document.Basic
import ExecutorHost.Decimal.Shortest
import ExecutorHost.Text.Quoted

/-!
# Written documents

Two written forms: the compact one has no spaces at all, the pretty one puts every item and every
member on a line of its own, two spaces further in for each level, and keeps empty arrays and empty
objects on one line. Both keep the order of the members.
-/

namespace ExecutorHost

namespace Decimal

/-- How a real number is laid out. -/
structure Layout where
  /-- The least exponent of the leading digit that is written without an exponent. -/
  plainFrom : Int
  /-- The least greater exponent that is written with an exponent again. -/
  plainBelow : Int

/-- A point with at least one digit behind it, and a positive exponent carries a plus sign. -/
def Layout.write (layout : Layout) (d : Scaled) : List Char :=
  let digits := Nat.toDigits 10 d.digits
  let lead : Int := d.exponent + digits.length - 1
  if layout.plainFrom ≤ lead ∧ lead < layout.plainBelow then
    if 0 ≤ d.exponent then digits ++ List.replicate d.exponent.toNat '0' ++ ['.', '0']
    else if 0 ≤ lead then
      digits.take (lead + 1).toNat ++ '.' :: digits.drop (lead + 1).toNat
    else '0' :: '.' :: List.replicate (-lead - 1).toNat '0' ++ digits
  else
    let exponent := (if lead < 0 then '-' else '+') :: Nat.toDigits 10 lead.natAbs
    match digits with
    | [only] => only :: 'e' :: exponent
    | first :: rest => first :: '.' :: rest ++ 'e' :: exponent
    | [] => []

end Decimal

namespace Number

/-- Real numbers of documents are plain from one hundred-thousandth up to below ten to the 16. -/
def realLayout : Decimal.Layout := ⟨-5, 16⟩

/-- The digits of an integer, after a minus sign if it is negative. -/
def writeWhole (n : Int) : List Char :=
  if n < 0 then '-' :: Nat.toDigits 10 n.natAbs else Nat.toDigits 10 n.natAbs

/-- The fewest digits of a double that read back, in the given layout; zero keeps its sign. -/
def writeReal (layout : Decimal.Layout) (x : Binary64) : List Char :=
  let (m, q) := x.magnitude
  let text :=
    if m = 0 then ['0', '.', '0'] else layout.write ((Decimal.shortest m q).trimmed 20)
  if x.isNegative then '-' :: text else text

/-- The written form of a number. -/
def write : Number → List Char
  | .whole n => writeWhole n
  | .real x => writeReal realLayout x

end Number

namespace Document

open Text.Quoted (encode)

/-- The spelling of a truth value. -/
def boolText (b : Bool) : List Char := (if b then "true" else "false").toList

mutual

/-- The compact form: no spaces at all. -/
def compact : Document → List Char
  | .null => "null".toList
  | .bool b => boolText b
  | .number n => n.write
  | .string s => encode s
  | .array items => '[' :: compactItems items ++ [']']
  | .object members => '\x7b' :: compactMembers members ++ ['\x7d']

/-- The items of an array with commas between them. -/
def compactItems : List Document → List Char
  | [] => []
  | [d] => compact d
  | d :: rest => compact d ++ ',' :: compactItems rest

/-- The members of an object with commas between them. -/
def compactMembers : List (String × Document) → List Char
  | [] => []
  | [(key, d)] => encode key ++ ':' :: compact d
  | (key, d) :: rest => encode key ++ ':' :: compact d ++ ',' :: compactMembers rest

end

/-- A line break and the indentation of a level. -/
def lineBreak (level : Nat) : List Char := '\n' :: List.replicate (2 * level) ' '

mutual

/-- The pretty form, standing at an indentation level. -/
def prettyAt (level : Nat) : Document → List Char
  | .array [] => ['[', ']']
  | .array items => '[' :: prettyItems (level + 1) items ++ lineBreak level ++ [']']
  | .object [] => ['\x7b', '\x7d']
  | .object members => '\x7b' :: prettyMembers (level + 1) members ++ lineBreak level ++ ['\x7d']
  | .null => "null".toList
  | .bool b => boolText b
  | .number n => n.write
  | .string s => encode s

/-- The items of an array, each on a line of its own. -/
def prettyItems (level : Nat) : List Document → List Char
  | [] => []
  | [d] => lineBreak level ++ prettyAt level d
  | d :: rest => lineBreak level ++ prettyAt level d ++ ',' :: prettyItems level rest

/-- The members of an object, each on a line of its own. -/
def prettyMembers (level : Nat) : List (String × Document) → List Char
  | [] => []
  | [(key, d)] => lineBreak level ++ encode key ++ ':' :: ' ' :: prettyAt level d
  | (key, d) :: rest =>
    lineBreak level ++ encode key ++ ':' :: ' ' :: prettyAt level d ++
      ',' :: prettyMembers level rest

end

/-- The compact text of a document. -/
def text (d : Document) : String := String.ofList d.compact

/-- The pretty text of a document. -/
def prettyText (d : Document) : String := String.ofList (d.prettyAt 0)

end Document

end ExecutorHost
