import Mathlib.Algebra.BigOperators.Ring.List
import Mathlib.Algebra.Ring.Nat
import Mathlib.Data.List.TakeWhile
import ExecutorHost.Proofs.Matrix.Packed

/-!
# The two conversions of a matrix

A matrix is converted to a packed buffer or to the bytes of one. Both conversions give the same
bytes, or fail with the same error, except at one kind of matrix. It has two or more channels of one
byte an element, and one of its dimensions is zero, so that it has no elements at all; but the
number of channels and the dimensions in front of the zero have a product that no machine word holds.
Its bytes are none, and a packed buffer of them is refused, because the product is taken from the
left and does not get as far as the zero.
-/

namespace ExecutorHost

namespace Matrix

variable {start : Nat} {dimensions : List UInt64}

/-! ## Products that do not fit -/

theorem volume_eq_zero_of_mem (h : 0 ∈ dimensions) : volume dimensions = 0 := by
  have hmem : 0 ∈ dimensions.map UInt64.toNat := List.mem_map.2 ⟨0, h, rfl⟩
  exact List.prod_eq_zero hmem

/-- The dimensions in front of the first zero. -/
def leading (dimensions : List UInt64) : List UInt64 := dimensions.takeWhile (· ≠ 0)

theorem leading_cons_of_ne {d : UInt64} (hd : d ≠ 0) (rest : List UInt64) :
    leading (d :: rest) = d :: leading rest := by
  simp [leading, hd]

theorem leading_eq_self (h : 0 ∉ dimensions) : leading dimensions = dimensions := by
  apply List.takeWhile_eq_self_iff.2
  intro d hd
  have hne : d ≠ 0 := fun heq => h (heq ▸ hd)
  simpa using hne

theorem toNat_pos_of_ne {d : UInt64} (hd : d ≠ 0) : 0 < d.toNat := by
  apply Nat.pos_of_ne_zero
  intro hzero
  exact hd (UInt64.toNat_inj.1 hzero)

theorem volume_leading_pos (dimensions : List UInt64) : 0 < volume (leading dimensions) := by
  induction dimensions with
  | nil => exact Nat.one_pos
  | cons d rest ih =>
    by_cases hd : d = 0
    · subst hd
      exact Nat.one_pos
    · rw [leading_cons_of_ne hd, volume_cons]
      exact Nat.mul_pos (toNat_pos_of_ne hd) ih

/-- A product from the left has no value if it does not fit in front of the first zero; behind that
it stays zero. -/
theorem product?_eq_none_iff (hstart : start < wordCount) (dimensions : List UInt64) :
    product? start dimensions = none ↔ wordCount ≤ start * volume (leading dimensions) := by
  induction dimensions generalizing start with
  | nil =>
    have hone : volume (leading []) = 1 := rfl
    rw [hone, Nat.mul_one]
    constructor
    · intro hnone
      cases hnone
    · intro hle
      omega
  | cons d rest ih =>
    by_cases hd : d = 0
    · subst hd
      have hzero : ¬wordCount ≤ 0 * volume (leading rest) := by
        rw [Nat.zero_mul]
        decide
      have hone : volume (leading (0 :: rest)) = 1 := rfl
      have hword : product? start (0 :: rest) = product? 0 rest := rfl
      rw [hword, hone, Nat.mul_one, ih (by decide)]
      exact ⟨fun hle => absurd hle hzero, fun hle => by omega⟩
    · have hpos := volume_leading_pos rest
      rw [leading_cons_of_ne hd, volume_cons, ← Nat.mul_assoc, product?]
      by_cases hlt : start * d.toNat < wordCount
      · have hword : word? (start * d.toNat) = some (start * d.toNat) :=
          word?_eq_some_iff.2 ⟨hlt, rfl⟩
        rw [hword, Option.bind_some, ih hlt]
      · have hword : word? (start * d.toNat) = none := if_neg hlt
        have hle : start * d.toNat ≤ start * d.toNat * volume (leading rest) :=
          Nat.le_mul_of_pos_right _ hpos
        rw [hword, Option.bind_none]
        exact ⟨fun _ => by omega, fun _ => rfl⟩

end Matrix

theorem PackedBuffer.ofView_of_product?_eq_none {elementType : ElementType} {count : UInt64}
    {rest : List UInt64} {view : View} (hrest : rest ≠ []) (hsome : count ≠ 0)
    (hfew : count.toNat ≤ Matrix.maxChannels)
    (hproduct : Matrix.product? elementType.size (count :: rest) = none) :
    ofView elementType (count :: rest) view =
      .error (.layout (.packedBytes view.size (count :: rest) none)) := by
  have hfault : fault? elementType (count :: rest) view.toBuffer.size =
      some (.packedBytes view.size (count :: rest) none) := by
    cases rest with
    | nil => exact absurd rfl hrest
    | cons d rest =>
      have hcount : ¬(decide (count = 0) || decide (Matrix.maxChannels < count.toNat)) = true := by
        simp [hsome, hfew]
      rw [view.size_toBuffer]
      simp only [fault?, if_neg hcount, hproduct, reduceCtorEq, if_false]
  unfold ofView
  split
  · rename_i fault heq
    rw [hfault] at heq
    cases heq
    rfl
  · rename_i heq
    rw [hfault] at heq
    cases heq

namespace Matrix

variable {m : Matrix} {order : ChannelOrder}

/-! ## The conversions side by side -/

/-- What packing a matrix gives, as bytes. -/
def packedForm (m : Matrix) (order : ChannelOrder) : Except MatrixError (List UInt8) :=
  (m.source.pack order).map fun p => p.buffer.bytes

/-- What converting a matrix to bytes gives. -/
def byteForm (m : Matrix) (order : ChannelOrder) : Except MatrixError (List UInt8) :=
  (m.source.packedBytes order).map Buffer.bytes

/-- The matrix has no elements, and yet the dimensions of its packed form are too large. -/
structure Overreaching (m : Matrix) : Prop where
  elementType : m.elementType = .u8
  channels : 2 ≤ m.channels.length
  empty : 0 ∈ m.dimensions
  tooLarge : wordCount ≤ m.channels.length * volume (leading m.dimensions)

theorem channels_lt (m : Matrix) : m.channels.length < wordCount :=
  Nat.lt_of_le_of_lt m.fitting.channels_le (by decide)

theorem product?_channels (m : Matrix) :
    product? 1 (m.channels.length.toUInt64 :: m.dimensions) =
      product? m.channels.length m.dimensions := by
  have hword : word? (1 * m.channels.length.toUInt64.toNat) = some m.channels.length := by
    rw [Nat.one_mul, toNat_toUInt64 m.fitting.channels_le]
    exact word?_eq_some_iff.2 ⟨m.channels_lt, rfl⟩
  rw [product?, hword, Option.bind_some]

theorem pack_of_many (hmany : m.channels.length ≠ 1) :
    m.source.pack order = (m.source.interleave order >>= fun bytes =>
      PackedBuffer.ofView m.elementType (m.channels.length.toUInt64 :: m.dimensions)
        (.ofBytes bytes)) := by
  have hcount : m.source.channelCount ≠ 1 := hmany
  unfold Source.pack
  rw [if_neg hcount]
  rfl

theorem packedBytes_of_many (htype : m.elementType = .u8) (hmany : m.channels.length ≠ 1) :
    m.source.packedBytes order =
      (m.source.interleave order >>= fun bytes => .ok { bytes }) := by
  have hcount : m.source.channelCount ≠ 1 := hmany
  have hbyte : ¬m.source.elementType ≠ .u8 := fun hne => hne htype
  unfold Source.packedBytes
  simp only [if_neg hbyte, if_neg hcount]
  rfl

/-- For elements of more than one byte the bytes are taken from the packed buffer. -/
theorem byteForm_of_ne (htype : m.elementType ≠ .u8) : m.byteForm order = m.packedForm order := by
  have hwide : m.source.elementType ≠ .u8 := htype
  unfold byteForm packedForm Source.packedBytes
  rw [if_pos hwide]
  cases m.source.pack order <;> rfl

/-- A single channel always has a packed form: the dimensions have been found to fit. -/
theorem byteForm_of_single (htype : m.elementType = .u8) (hsingle : m.channels.length = 1) :
    m.byteForm order = m.packedForm order := by
  obtain ⟨view, hview⟩ := List.length_eq_one_iff.1 hsingle
  have hcount : m.source.channelCount = 1 := hsingle
  have hbyte : ¬m.source.elementType ≠ .u8 := fun hne => hne htype
  have hsize : view.size = volume m.dimensions := by
    rw [m.fitting.size view (by simp [hview]), htype]
    exact Nat.one_mul _
  have hproduct : product? m.elementType.size (m.channels.length.toUInt64 :: m.dimensions) =
      some (volume m.dimensions) := by
    rw [htype]
    show product? 1 _ = _
    rw [m.product?_channels, hsingle]
    exact m.fitting.volume
  obtain ⟨p, hp⟩ := exists_ofView hsize hproduct
  obtain ⟨-, -, hbytes⟩ := PackedBuffer.of_ofView_eq_ok hp
  have hpack : m.source.pack order = .ok p := by
    unfold Source.pack
    rw [if_pos hcount, channel_of_single hview]
    exact hp
  have hconvert : m.source.packedBytes order = .ok view.toBuffer := by
    unfold Source.packedBytes
    simp only [if_neg hbyte, if_pos hcount, channel_of_single hview]
    rfl
  unfold byteForm packedForm
  rw [hpack, hconvert]
  exact congrArg Except.ok (view.bytes_toBuffer.trans hbytes.symm)

/-- Several channels of one byte an element have a packed form if the product of its dimensions has
a value. -/
theorem byteForm_of_product? (htype : m.elementType = .u8) (hmany : m.channels.length ≠ 1)
    {total : Nat} (hproduct : product? m.channels.length m.dimensions = some total) :
    m.byteForm order = m.packedForm order := by
  unfold byteForm packedForm
  rw [pack_of_many hmany, packedBytes_of_many htype hmany]
  cases hinterleave : m.source.interleave order with
  | error e => rfl
  | ok bytes =>
    obtain ⟨packed, hpacked⟩ := Source.exists_packedSize hinterleave
    rw [interleave_of_packedSize hpacked] at hinterleave
    have hmerged := Interleave.length_merge (m.length_of_mem_arrange order)
    rw [Except.ok.inj hinterleave, ChannelOrder.length_arrange, channelList, List.length_map,
      htype] at hmerged
    have hsize : (View.ofBytes bytes).size = total := by
      rw [View.size_ofBytes, hmerged, eq_of_product? hproduct]
      show 1 * _ * _ = _
      rw [Nat.one_mul]
    have hfits : product? m.elementType.size (m.channels.length.toUInt64 :: m.dimensions) =
        some total := by
      rw [htype]
      exact m.product?_channels.trans hproduct
    obtain ⟨p, hp⟩ := exists_ofView hsize hfits
    obtain ⟨-, -, hbytes⟩ := PackedBuffer.of_ofView_eq_ok hp
    show Except.ok bytes =
      (PackedBuffer.ofView m.elementType (m.channels.length.toUInt64 :: m.dimensions)
        (.ofBytes bytes)).map fun p => p.buffer.bytes
    rw [hp]
    exact congrArg Except.ok (hbytes.trans (View.bytes_ofBytes bytes)).symm

theorem Overreaching.product? (h : m.Overreaching) :
    Matrix.product? m.channels.length m.dimensions = none :=
  (product?_eq_none_iff m.channels_lt m.dimensions).2 h.tooLarge

theorem Overreaching.interleave (h : m.Overreaching) (order : ChannelOrder) :
    m.source.interleave order = .ok [] := by
  have hvolume := volume_eq_zero_of_mem h.empty
  have hsize : m.source.packedSize = .ok 0 := by
    rw [packedSize_eq_ok_iff, hvolume]
    exact ⟨rfl, Nat.zero_le _⟩
  rw [interleave_of_packedSize hsize, hvolume]
  rfl

/-- The bytes of such a matrix are none, and packing it fails. -/
theorem Overreaching.conversions (h : m.Overreaching) (order : ChannelOrder) :
    m.source.packedBytes order = .ok { bytes := [] } ∧
      m.source.pack order = .error
        (.layout (.packedBytes 0 (m.channels.length.toUInt64 :: m.dimensions) none)) := by
  have hmany : m.channels.length ≠ 1 := by
    have htwo := h.channels
    omega
  have hcount := toNat_toUInt64 m.fitting.channels_le
  have hsome : m.channels.length.toUInt64 ≠ 0 := by
    intro hzero
    rw [hzero] at hcount
    exact Nat.ne_of_lt m.fitting.channels_pos hcount
  have hproduct : Matrix.product? m.elementType.size
      (m.channels.length.toUInt64 :: m.dimensions) = none := by
    rw [h.elementType]
    exact m.product?_channels.trans h.product?
  rw [packedBytes_of_many h.elementType hmany, pack_of_many hmany, h.interleave order]
  refine ⟨rfl, ?_⟩
  exact PackedBuffer.ofView_of_product?_eq_none m.fitting.dimensions hsome
    (hcount.symm ▸ m.fitting.channels_le) hproduct

/-- A matrix that is not too large to be packed, but has dimensions that are, has no elements. -/
theorem overreaching_of_product? (htype : m.elementType = .u8) (hmany : m.channels.length ≠ 1)
    (hproduct : product? m.channels.length m.dimensions = none)
    (hsize : m.source.packedSize = .ok total) : m.Overreaching := by
  have htooLarge := (product?_eq_none_iff m.channels_lt m.dimensions).1 hproduct
  have hpos := m.fitting.channels_pos
  refine ⟨htype, by omega, ?_, htooLarge⟩
  -- without a zero the dimensions in front of it are all of them, and their product is in bounds
  by_contra hnone
  obtain ⟨htotal, hmax⟩ := (m.packedSize_eq_ok_iff total).1 hsize
  rw [leading_eq_self hnone] at htooLarge
  rw [htype] at htotal
  have hone : ElementType.u8.size = 1 := rfl
  rw [hone, Nat.one_mul] at htotal
  have hlimit : maxPackedBytes < wordCount := by decide
  omega

/-- The bytes of a matrix are those of its packed form, and both conversions fail with the same
error, unless the matrix has no elements and the dimensions in front of its zero do not fit. Such a
matrix has no bytes, and its packed form is refused. -/
theorem conversions_agree_iff (m : Matrix) (order : ChannelOrder) :
    (m.byteForm order = m.packedForm order ↔ ¬m.Overreaching) ∧
      (m.Overreaching →
        m.source.packedBytes order = .ok { bytes := [] } ∧
          m.source.pack order = .error
            (.layout (.packedBytes 0 (m.channels.length.toUInt64 :: m.dimensions) none))) := by
  refine ⟨⟨?_, ?_⟩, fun h => h.conversions order⟩
  · intro hagree h
    obtain ⟨hbytes, hpack⟩ := h.conversions order
    unfold byteForm packedForm at hagree
    rw [hbytes, hpack] at hagree
    cases hagree
  · intro h
    by_cases htype : m.elementType = .u8
    · by_cases hsingle : m.channels.length = 1
      · exact byteForm_of_single htype hsingle
      · cases hproduct : product? m.channels.length m.dimensions with
        | some total => exact byteForm_of_product? htype hsingle hproduct
        | none =>
          unfold byteForm packedForm
          rw [pack_of_many hsingle, packedBytes_of_many htype hsingle]
          cases hinterleave : m.source.interleave order with
          | error e => rfl
          | ok bytes =>
            obtain ⟨total, hsize⟩ := Source.exists_packedSize hinterleave
            exact absurd (overreaching_of_product? htype hsingle hproduct hsize) h
    · exact byteForm_of_ne htype

/-- Two channels without elements; twice the first dimension is more than a machine word holds. -/
def hollowChannels : Matrix where
  elementType := .u8
  dimensions := [0x8000000000000000, 0]
  channels := [.ofBytes [], .ofBytes []]
  sound := by decide

theorem overreaching_hollowChannels : hollowChannels.Overreaching where
  elementType := rfl
  channels := by decide
  empty := by decide
  tooLarge := by decide

theorem conversions_of_hollowChannels :
    hollowChannels.Overreaching ∧
      hollowChannels.source.packedBytes .standard = .ok { bytes := [] } ∧
      hollowChannels.source.pack .standard =
        .error (.layout (.packedBytes 0 [2, 0x8000000000000000, 0] none)) :=
  have hdiffer := (conversions_agree_iff hollowChannels .standard).2 overreaching_hollowChannels
  ⟨overreaching_hollowChannels, hdiffer⟩

theorem byteForm_ne_packedForm :
    hollowChannels.byteForm .standard = .ok [] ∧
      hollowChannels.packedForm .standard =
        .error (.layout (.packedBytes 0 [2, 0x8000000000000000, 0] none)) ∧
      hollowChannels.byteForm .standard ≠ hollowChannels.packedForm .standard := by
  obtain ⟨hbytes, hpack⟩ := overreaching_hollowChannels.conversions .standard
  have hbyteForm : hollowChannels.byteForm .standard = .ok [] := by
    rw [byteForm, hbytes]
    rfl
  have hpackedForm : hollowChannels.packedForm .standard =
      .error (.layout (.packedBytes 0 [2, 0x8000000000000000, 0] none)) := by
    rw [packedForm, hpack]
    rfl
  refine ⟨hbyteForm, hpackedForm, ?_⟩
  rw [hbyteForm, hpackedForm]
  intro hagree
  cases hagree

end Matrix

end ExecutorHost
