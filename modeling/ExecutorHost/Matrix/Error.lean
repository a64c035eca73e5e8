/-!
# Errors of matrices

Why a view, a matrix or a packed buffer is refused. Sizes and dimensions are machine words of 64
bits; a product that does not fit into one has no value.
-/

namespace ExecutorHost

namespace Matrix

/-- The number of values of a machine word. -/
def wordCount : Nat := UInt64.size

/-- The most bytes that a packed buffer may hold. -/
def maxPackedBytes : Nat := 0x7fffffff

/-- The most channels that a matrix may have. -/
def maxChannels : Nat := 512

end Matrix

/-- What does not fit together in a view, a matrix or a packed buffer. -/
inductive LayoutFault
  /-- A view reaches beyond its buffer. -/
  | viewOutside (start stop available : Nat)
  /-- A matrix has no dimension. -/
  | noDimension
  /-- The number of channels is not allowed. -/
  | channelCount (found : Nat)
  /-- The bytes of a channel are too many for a machine word. -/
  | overflow (dimensions : List UInt64)
  /-- A channel does not have the bytes that the dimensions ask for. -/
  | channelBytes (channel found expected : Nat)
  /-- A matrix has no channel. -/
  | noChannel
  /-- A channel is not there. -/
  | channelMissing (channel : Nat)
  /-- A packed buffer has too few dimensions. -/
  | packedDimensions (found : Nat)
  /-- A packed buffer does not have the bytes that its dimensions ask for, if these fit a word. -/
  | packedBytes (found : Nat) (dimensions : List UInt64) (expected : Option Nat)
deriving DecidableEq, Repr

/-- The wording of a layout fault. -/
def LayoutFault.message : LayoutFault → String
  | .viewOutside start stop available =>
    s!"view {start}..{stop} is outside a buffer of {available} bytes"
  | .noDimension => "a matrix needs at least one dimension"
  | .channelCount found =>
    s!"number of channels must be in 1..={Matrix.maxChannels}, not {found}"
  | .overflow dimensions => s!"dimensions {dimensions} overflow"
  | .channelBytes channel found expected =>
    s!"channel {channel} has {found} bytes, expected {expected}"
  | .noChannel => "a matrix needs at least one channel"
  | .channelMissing channel => s!"channel {channel} is missing"
  | .packedDimensions found =>
    s!"packed matrix cannot be {found}-dimensional, the first dimension stores channels"
  | .packedBytes found dimensions expected =>
    let needed := match expected with
      | some n => s!"{n}"
      | none => "more than u64::MAX"
    s!"packed view has {found} bytes, dimensions {dimensions} need {needed}"

/-- Why packing or unpacking fails. -/
inductive MatrixError
  /-- The packed form has more bytes than a packed buffer may hold. -/
  | capacity (channels elements elementSize : Nat)
  /-- The parts do not fit together. -/
  | layout (fault : LayoutFault)
deriving DecidableEq, Repr

/-- The wording of an error. -/
def MatrixError.message : MatrixError → String
  | .capacity channels elements elementSize =>
    s!"Too large matrix: {channels} channels x {elements} elements x {elementSize} bytes " ++
      s!"exceeds {Matrix.maxPackedBytes} bytes"
  | .layout fault => s!"Invalid packed layout: {fault.message}"

end ExecutorHost
