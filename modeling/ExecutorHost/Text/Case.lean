/-!
# Case of letters

Texts compared without regard to the case of the letters a to z. Other letters are compared as they
are.
-/

namespace ExecutorHost.Text

/-- Two texts are equal up to the case of the letters a to z. -/
def sameIgnoringCase (a b : String) : Bool :=
  a.toList.map Char.toLower == b.toList.map Char.toLower

end ExecutorHost.Text
