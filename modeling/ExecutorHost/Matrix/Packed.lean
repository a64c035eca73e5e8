import ExecutorHost.Matrix.Basic
import ExecutorHost.Matrix.Interleave

/-!
# Packed buffers

The packed form of a matrix holds all channels in one buffer, interleaved element by element in a
channel order. Its first dimension is the number of channels. The single channel of a matrix is its
own packed form, so a view of a whole buffer is handed on as it is.
-/

namespace ExecutorHost

namespace PackedBuffer

/-- The first thing that does not fit in a packed buffer of this many bytes. -/
def fault? (elementType : ElementType) (dimensions : List UInt64) (size : Nat) :
    Option LayoutFault :=
  match dimensions with
  | [] => some (.packedDimensions 0)
  | [_] => some (.packedDimensions 1)
  | count :: _ =>
    if count = 0 || Matrix.maxChannels < count.toNat then some (.channelCount count.toNat)
    else
      let expected := Matrix.product? elementType.size dimensions
      if expected = some size then none else some (.packedBytes size dimensions expected)

end PackedBuffer

/-- A packed matrix, which fills its buffer exactly. -/
structure PackedBuffer where
  /-- The type of the elements. -/
  elementType : ElementType
  /-- The number of channels and the dimensions of one channel. -/
  dimensions : List UInt64
  /-- The interleaved bytes. -/
  buffer : Buffer
  /-- Everything fits together. -/
  sound : PackedBuffer.fault? elementType dimensions buffer.size = none
deriving Repr

namespace PackedBuffer

/-- The packed buffer of a view, which must have the bytes that the dimensions ask for. -/
def ofView (elementType : ElementType) (dimensions : List UInt64) (view : View) :
    Except MatrixError PackedBuffer :=
  match h : fault? elementType dimensions view.toBuffer.size with
  | some fault => .error (.layout fault)
  | none => .ok ⟨elementType, dimensions, view.toBuffer, h⟩

/-- The number of channels. -/
def channelCount (p : PackedBuffer) : Nat := (p.dimensions.headD 0).toNat

/-- The packed buffer has a single channel, which is then the buffer itself. -/
def isSingle (p : PackedBuffer) : Bool := p.channelCount == 1

/-- The number of bytes of one element of all channels. -/
def stride (p : PackedBuffer) : Nat := p.elementType.size * p.channelCount

/-- The number of elements of a channel. -/
def elementCount (p : PackedBuffer) : Nat := p.buffer.size / p.stride

/-- The bytes that stand at each position inside the elements. -/
def positions (p : PackedBuffer) : List (List UInt8) :=
  Interleave.split p.elementType.size p.channelCount p.elementCount p.buffer.bytes

/-- The matrix whose packed form this is, read in a channel order. -/
def unpack (p : PackedBuffer) (order : ChannelOrder) : Except MatrixError Matrix :=
  let dimensions := p.dimensions.tail
  if p.isSingle then Matrix.make p.elementType dimensions [View.whole p.buffer]
  else
    let positions := p.positions
    let channels := (order.channels p.channelCount).map fun position => positions.getD position []
    Matrix.ofChannels p.elementType dimensions channels

end PackedBuffer

namespace Source

/-- The number of elements of a channel. -/
def elementCount? (s : Source) : Option Nat := Matrix.elementCount? s.dimensions

/-- A channel, which must be there. -/
def channel (s : Source) (index : Nat) : Except MatrixError View :=
  match s.channels[index]? with
  | some view => .ok view
  | none => .error (.layout (.channelMissing index))

/-- The number of bytes of the packed form, unless it is too large. -/
def packedSize (s : Source) : Except MatrixError Nat :=
  let total := do
    let n ← Matrix.word? ((← s.elementCount?) * s.channelCount)
    Matrix.word? (n * s.elementType.size)
  let tooLarge := MatrixError.capacity s.channelCount
    (s.elementCount?.getD (Matrix.wordCount - 1)) s.elementType.size
  match total with
  | some n => if n ≤ Matrix.maxPackedBytes then .ok n else .error tooLarge
  | none => .error tooLarge

/-- The bytes of a channel, which must be there and have the expected size. -/
def channelBytes (s : Source) (expected index : Nat) : Except MatrixError (List UInt8) := do
  let view ← s.channel index
  if view.size = expected then .ok view.bytes
  else .error (.layout (.channelBytes index view.size expected))

/-- The channels interleaved in a channel order. -/
def interleave (s : Source) (order : ChannelOrder) : Except MatrixError (List UInt8) := do
  if s.channelCount = 0 then .error (.layout .noChannel)
  let total ← s.packedSize
  let expected := total / s.channelCount
  let channels ← (order.channels s.channelCount).mapM (s.channelBytes expected)
  return Interleave.merge s.elementType.size (expected / s.elementType.size) channels

/-- The packed form in a channel order. -/
def pack (s : Source) (order : ChannelOrder) : Except MatrixError PackedBuffer := do
  let dimensions := s.channelCount.toUInt64 :: s.dimensions
  if s.channelCount = 1 then PackedBuffer.ofView s.elementType dimensions (← s.channel 0)
  else
    let bytes ← s.interleave order
    PackedBuffer.ofView s.elementType dimensions (.ofBytes bytes)

/--
The bytes of the packed form. Elements of one byte need no packed buffer for that, so nothing about
the dimensions is checked for them beyond what interleaving needs.
-/
def packedBytes (s : Source) (order : ChannelOrder) : Except MatrixError Buffer := do
  if s.elementType ≠ .u8 then return (← s.pack order).buffer
  if s.channelCount = 1 then return (← s.channel 0).toBuffer
  return { bytes := ← s.interleave order }

end Source

/-- A matrix together with the channel order in which it is to be packed. -/
structure Convertible where
  /-- The matrix. -/
  matrix : Matrix
  /-- The channel order. -/
  order : ChannelOrder := .standard
deriving Repr

namespace Convertible

/-- The matrix, if it is asked for in the order in which it is to be packed. -/
def matrixIn? (c : Convertible) (order : ChannelOrder) : Option Matrix :=
  if order = c.order then some c.matrix else none

/-- The convertible matrix in words. -/
def text (c : Convertible) : String := s!"reference to {c.matrix.text}"

end Convertible

end ExecutorHost
