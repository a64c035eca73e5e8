/-!
# Parts of texts

A word occurs in a text if it stands somewhere in it without a gap.
-/

namespace ExecutorHost.Text

/-- A word occurs in a list of characters. -/
def occursIn (word : List Char) : List Char → Bool
  | [] => word.isEmpty
  | c :: rest => word.isPrefixOf (c :: rest) || occursIn word rest

/-- A word occurs in a text. -/
def contains (text word : String) : Bool := occursIn word.toList text.toList

end ExecutorHost.Text
