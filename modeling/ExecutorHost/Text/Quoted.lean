import ExecutorHost.Text.Hex

/-!
# Quoted text

The quoted form of a string in a written document: a quote and a backslash are escaped, and so is
every control character below U+0020, by a short form where the format has one and by four
hexadecimal digits otherwise. All other characters stand for themselves.
-/

namespace ExecutorHost.Text.Quoted

/-- The written form of one character inside quotes. -/
def encodeChar (c : Char) : List Char :=
  match c with
  | '"' => ['\\', '"']
  | '\\' => ['\\', '\\']
  | '\x08' => ['\\', 'b']
  | '\x0c' => ['\\', 'f']
  | '\n' => ['\\', 'n']
  | '\r' => ['\\', 'r']
  | '\t' => ['\\', 't']
  | _ => if c.toNat < 32 then '\\' :: 'u' :: hexPadded 4 c.toNat else [c]

/-- The written form of a string: its escaped characters between quotes. -/
def encode (s : String) : List Char := '"' :: s.toList.flatMap encodeChar ++ ['"']

end ExecutorHost.Text.Quoted
