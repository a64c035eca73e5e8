import ExecutorHost.Matrix.Error

/-!
# Buffers and views

A buffer is a run of bytes, and a view is a part of one. A buffer that was handed in carries a mark
of its own, so that it can be told whether a result is that buffer or a copy; a buffer made by
copying has no mark.
-/

namespace ExecutorHost

/-- A run of bytes in memory. -/
structure Buffer where
  /-- The mark of a buffer that was handed in. -/
  mark : Option Nat := none
  /-- The bytes. -/
  bytes : List UInt8
deriving DecidableEq, Repr, Inhabited

/-- The number of bytes of a buffer. -/
def Buffer.size (b : Buffer) : Nat := b.bytes.length

/-- A part of a buffer. -/
structure View where
  /-- The buffer. -/
  buffer : Buffer
  /-- Where the part starts. -/
  offset : Nat
  /-- The number of bytes of the part. -/
  size : Nat
  /-- The part ends inside the buffer. -/
  inside : offset + size ≤ buffer.size
deriving DecidableEq, Repr

namespace View

/-- The view of a whole buffer. -/
def whole (buffer : Buffer) : View := ⟨buffer, 0, buffer.size, by simp⟩

/-- The view of bytes in a buffer of their own. -/
def ofBytes (bytes : List UInt8) : View := whole { bytes }

/-- The view of a part, which must lie inside the buffer. -/
def slice (buffer : Buffer) (offset size : Nat) : Except MatrixError View :=
  if h : offset + size ≤ buffer.size then .ok ⟨buffer, offset, size, h⟩
  else
    let stop := min (offset + size) (Matrix.wordCount - 1)
    .error (.layout (.viewOutside offset stop buffer.size))

/-- The bytes that a view shows. -/
def bytes (v : View) : List UInt8 := (v.buffer.bytes.drop v.offset).take v.size

/-- A view shows as many bytes as it has. -/
theorem length_bytes (v : View) : v.bytes.length = v.size := by
  have := v.inside
  simp only [Buffer.size] at this
  simp only [bytes, List.length_take, List.length_drop]
  omega

/-- The view shows all of its buffer. -/
def isWhole (v : View) : Bool := v.offset == 0 && v.size == v.buffer.size

/-- The viewed bytes as a buffer: the buffer itself if the view shows all of it, or else a copy. -/
def toBuffer (v : View) : Buffer := if v.isWhole then v.buffer else { bytes := v.bytes }

/-- The buffer of a view has the bytes that the view shows. -/
theorem bytes_toBuffer (v : View) : v.toBuffer.bytes = v.bytes := by
  unfold toBuffer
  split
  · rename_i h
    simp only [isWhole, Bool.and_eq_true, beq_iff_eq, Buffer.size] at h
    simp [bytes, h.1, h.2]
  · rfl

/-- The buffer of a view has as many bytes as the view. -/
theorem size_toBuffer (v : View) : v.toBuffer.size = v.size := by
  rw [Buffer.size, bytes_toBuffer, length_bytes]

end View

end ExecutorHost
