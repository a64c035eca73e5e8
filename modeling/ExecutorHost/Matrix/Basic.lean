import ExecutorHost.Matrix.Buffer

/-!
# Matrices of several channels

A matrix has elements of one type, dimensions, and one view of bytes for each of its channels. A
`Source` is the bare description, which may be wrong in every way; a `Matrix` is one whose parts fit
together.
-/

namespace ExecutorHost

/-- The types of elements. -/
inductive ElementType
  /-- Unsigned, one byte. -/
  | u8
  /-- Unsigned, two bytes. -/
  | u16
  /-- Signed, two bytes. -/
  | i16
  /-- Signed, four bytes. -/
  | i32
  /-- Floating point, four bytes. -/
  | f32
  /-- Floating point, eight bytes. -/
  | f64
deriving DecidableEq, Repr, Inhabited

namespace ElementType

/-- All types. -/
def all : List ElementType := [.u8, .u16, .i16, .i32, .f32, .f64]

/-- The written name. -/
def name : ElementType → String
  | .u8 => "u8"
  | .u16 => "u16"
  | .i16 => "i16"
  | .i32 => "i32"
  | .f32 => "f32"
  | .f64 => "f64"

/-- The name in texts about matrices. -/
def title (t : ElementType) : String := t.name.capitalize

/-- The number of bytes of an element. -/
def size : ElementType → Nat
  | .u8 => 1
  | .u16 | .i16 => 2
  | .i32 | .f32 => 4
  | .f64 => 8

/-- An element has at least one byte. -/
theorem size_pos (t : ElementType) : 0 < t.size := by cases t <;> decide

end ElementType

/-- The order of the channels inside an element of a packed buffer. -/
inductive ChannelOrder
  /-- Blue, green, red, and whatever follows: the first and the third channel change places. -/
  | standard
  /-- The order of the channels themselves. -/
  | natural
deriving DecidableEq, Repr, Inhabited

namespace ChannelOrder

/-- All orders. -/
def all : List ChannelOrder := [.standard, .natural]

/-- The written name. -/
def name : ChannelOrder → String
  | .standard => "standard"
  | .natural => "packed_buffer"

/-- The channel that stands at a position, among a number of channels. -/
def channelAt (order : ChannelOrder) (count position : Nat) : Nat :=
  match order with
  | .natural => position
  | .standard =>
    if count < 3 then position
    else if position = 0 then 2
    else if position = 2 then 0
    else position

/-- The channels in the order of their positions. -/
def channels (order : ChannelOrder) (count : Nat) : List Nat :=
  (List.range count).map (order.channelAt count)

end ChannelOrder

namespace Matrix

/-- A number, if a machine word holds it. -/
def word? (n : Nat) : Option Nat := if n < wordCount then some n else none

/-- A start value times all dimensions, if every product on the way fits a machine word. -/
def product? (start : Nat) : List UInt64 → Option Nat
  | [] => some start
  | d :: dimensions => (word? (start * d.toNat)).bind fun n => product? n dimensions

/-- The number of elements of a channel. -/
def elementCount? (dimensions : List UInt64) : Option Nat := product? 1 dimensions

/-- The number of bytes of a channel. -/
def channelBytes? (elementType : ElementType) (dimensions : List UInt64) : Option Nat :=
  (elementCount? dimensions).bind fun n => word? (n * elementType.size)

/-- The first channel of another size, as its index and its size; counting starts at an index. -/
def firstOfOtherSize? (expected index : Nat) : List Nat → Option (Nat × Nat)
  | [] => none
  | size :: sizes =>
    if size = expected then firstOfOtherSize? expected (index + 1) sizes else some (index, size)

/-- The first thing that does not fit in a matrix whose channels have these sizes. -/
def fault? (elementType : ElementType) (dimensions : List UInt64) (sizes : List Nat) :
    Option LayoutFault :=
  if dimensions.isEmpty then some .noDimension
  else if sizes.isEmpty || maxChannels < sizes.length then some (.channelCount sizes.length)
  else
    match channelBytes? elementType dimensions with
    | none => some (.overflow dimensions)
    | some expected =>
      (firstOfOtherSize? expected 0 sizes).map fun (index, size) =>
        .channelBytes index size expected

end Matrix

/-- A description of a matrix, of which nothing is known to be right. -/
structure Source where
  /-- The type of the elements. -/
  elementType : ElementType
  /-- The dimensions of one channel. -/
  dimensions : List UInt64
  /-- The number of channels, as it is given. -/
  channelCount : Nat
  /-- The channels that are there. -/
  channels : List View
deriving Repr

/-- A matrix whose channels all have the bytes that the dimensions ask for. -/
structure Matrix where
  /-- The type of the elements. -/
  elementType : ElementType
  /-- The dimensions of one channel. -/
  dimensions : List UInt64
  /-- The channels. -/
  channels : List View
  /-- Everything fits together. -/
  sound : Matrix.fault? elementType dimensions (channels.map (·.size)) = none
deriving Repr

namespace Matrix

/-- The matrix of these parts, which must fit together. -/
def make (elementType : ElementType) (dimensions : List UInt64) (channels : List View) :
    Except MatrixError Matrix :=
  match h : fault? elementType dimensions (channels.map (·.size)) with
  | some fault => .error (.layout fault)
  | none => .ok ⟨elementType, dimensions, channels, h⟩

/-- The matrix over channels in buffers of their own. -/
def ofChannels (elementType : ElementType) (dimensions : List UInt64)
    (channels : List (List UInt8)) : Except MatrixError Matrix :=
  make elementType dimensions (channels.map View.ofBytes)

/-- The description of a matrix. -/
def source (m : Matrix) : Source := ⟨m.elementType, m.dimensions, m.channels.length, m.channels⟩

/-- The matrix in words. -/
def text (m : Matrix) : String :=
  s!"multi-matrix {m.elementType.title}x{m.dimensions}, {m.channels.length} channel(s)"

end Matrix

end ExecutorHost
