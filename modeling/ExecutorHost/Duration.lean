import ExecutorHost.Binary64

/-!
# Durations

A span of time in whole nanoseconds, the text that shows it in the largest unit that keeps a whole
part, and its length in milliseconds as a double. The milliseconds are computed step by step, each
step rounded to the nearest double: seconds and fraction are added, and the sum is multiplied.
-/

namespace ExecutorHost

/-- A span of time. -/
structure Duration where
  /-- The length in nanoseconds. -/
  nanoseconds : Nat
deriving DecidableEq, Repr

namespace Duration

/-- The whole milliseconds. -/
def wholeMilliseconds (d : Duration) : Nat := d.nanoseconds / 1000000

/-- The length in milliseconds. -/
def milliseconds (d : Duration) : Binary64 :=
  let seconds := Binary64.nearest (d.nanoseconds / 1000000000) 1
  let fraction := Binary64.nearest (d.nanoseconds % 1000000000) 1000000000
  (seconds.addMagnitudes fraction).scaleMagnitude 1000

/-- A number of units as a decimal with at most `places` places and no zeros at the end. -/
def inUnit (nanoseconds places : Nat) (unit : String) : String :=
  let size := Nat.pow 10 places
  let digits := Nat.toDigits 10 (nanoseconds % size)
  let padded := List.replicate (places - digits.length) '0' ++ digits
  let shown := (padded.reverse.dropWhile (· = '0')).reverse
  if nanoseconds % size = 0 then s!"{nanoseconds / size}{unit}"
  else s!"{nanoseconds / size}.{String.ofList shown}{unit}"

/-- The length in the largest unit that has a whole part. -/
def text (d : Duration) : String :=
  let n := d.nanoseconds
  if 1000000000 ≤ n then inUnit n 9 "s"
  else if 1000000 ≤ n then inUnit n 6 "ms"
  else if 1000 ≤ n then inUnit n 3 "µs"
  else inUnit n 0 "ns"

end Duration

end ExecutorHost
