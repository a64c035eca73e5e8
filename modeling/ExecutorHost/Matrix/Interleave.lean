/-!
# Interleaving

Channels of bytes are interleaved element by element: first the first element of every channel, then
the second of every channel, and so on. Taking a run of bytes apart is the way back.
-/

namespace ExecutorHost.Interleave

/--
The channels merged: a number of rounds, each taking an element of the given size from every one.
-/
def merge (size : Nat) : (rounds : Nat) → List (List UInt8) → List UInt8
  | 0, _ => []
  | rounds + 1, channels =>
    channels.flatMap (·.take size) ++ merge size rounds (channels.map (·.drop size))

/-- A run of bytes cut into a number of elements of the given size. -/
def cut (size : Nat) : (count : Nat) → List UInt8 → List (List UInt8)
  | 0, _ => []
  | count + 1, bytes => bytes.take size :: cut size count (bytes.drop size)

/-- A run of bytes taken apart into channels: each round hands one element to every channel. -/
def split (size count : Nat) : (rounds : Nat) → List UInt8 → List (List UInt8)
  | 0, _ => List.replicate count []
  | rounds + 1, bytes =>
    List.zipWith (· ++ ·) (cut size count bytes)
      (split size count rounds (bytes.drop (size * count)))

end ExecutorHost.Interleave
