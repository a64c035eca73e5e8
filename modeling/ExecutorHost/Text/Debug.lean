import ExecutorHost.Text.Hex
import ExecutorHost.Text.Hidden

/-!
# Text shown for diagnosis

Error messages show a text between quotes in such a way that invisible characters can be told apart:
the quote, the backslash and the usual control characters have short escapes, and every other
character that has no visible form of its own is shown by its code point in braces.
-/

namespace ExecutorHost.Text.Debug

/-- The shown form of one character. -/
def showChar (c : Char) : List Char :=
  match c with
  | '"' => ['\\', '"']
  | '\\' => ['\\', '\\']
  | '\n' => ['\\', 'n']
  | '\r' => ['\\', 'r']
  | '\t' => ['\\', 't']
  | '\x00' => ['\\', '0']
  | _ => if isHidden c then "\\u\x7b".toList ++ hexDigits c.toNat ++ ['\x7d'] else [c]

/-- The shown form of a text. -/
def showText (s : String) : String := String.ofList ('"' :: s.toList.flatMap showChar ++ ['"'])

/-- The shown form of a list of texts. -/
def showList (texts : List String) : String :=
  "[" ++ ", ".intercalate (texts.map showText) ++ "]"

end ExecutorHost.Text.Debug
