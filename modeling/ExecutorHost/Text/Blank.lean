/-!
# Blank text

White space is the set of characters with the Unicode property of that name. A text of white space
only is blank.
-/

namespace ExecutorHost.Text

/-- The ranges of code points with the property of being white space. -/
def whiteSpaceRanges : List (Nat × Nat) :=
  [(0x9, 0xD), (0x20, 0x20), (0x85, 0x85), (0xA0, 0xA0), (0x1680, 0x1680), (0x2000, 0x200A),
    (0x2028, 0x2029), (0x202F, 0x202F), (0x205F, 0x205F), (0x3000, 0x3000)]

/-- A character is white space. -/
def isWhiteSpace (c : Char) : Bool :=
  whiteSpaceRanges.any fun (low, high) => low ≤ c.toNat && c.toNat ≤ high

/-- A text holds white space only. -/
def isBlank (text : String) : Bool := text.toList.all isWhiteSpace

end ExecutorHost.Text
