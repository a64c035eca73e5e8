import ExecutorHost.Matrix.Packed
import ExecutorHost.Proofs.Matrix.Interleave
import ExecutorHost.Proofs.Matrix.Layout
import ExecutorHost.Proofs.Outcome

/-!
# Packing and unpacking

The bytes of a packed form are the channels, arranged in the channel order and merged; the channels
of an unpacked matrix are the bytes, taken apart and arranged in the channel order. Both are said
once for any number of channels, though a single channel takes a way of its own. So packing and
unpacking are inverse to each other: the steps they are made of are.
-/

namespace ExecutorHost

/-! ## Unpacking -/

theorem View.size_ofBytes (bytes : List UInt8) : (View.ofBytes bytes).size = bytes.length := rfl

theorem View.bytes_whole (buffer : Buffer) : (View.whole buffer).bytes = buffer.bytes := by
  simp [View.whole, View.bytes, Buffer.size]

theorem View.bytes_ofBytes (bytes : List UInt8) : (View.ofBytes bytes).bytes = bytes :=
  View.bytes_whole { bytes }

namespace PackedBuffer

theorem Fitting.stride_pos {p : PackedBuffer} (h : p.Fitting) : 0 < p.stride :=
  Nat.mul_pos p.elementType.size_pos h.channelCount_pos

theorem Fitting.elementCount {p : PackedBuffer} (h : p.Fitting) :
    p.elementCount = Matrix.volume p.dimensions.tail := by
  rw [PackedBuffer.elementCount, h.size]
  exact Nat.mul_div_cancel_left _ h.stride_pos

theorem Fitting.length_bytes {p : PackedBuffer} (h : p.Fitting) :
    p.buffer.bytes.length = p.elementType.size * p.channelCount * p.elementCount := by
  rw [h.elementCount]
  exact h.size

/-- The single channel of a packed buffer is the buffer. -/
theorem Fitting.arrange_positions_of_isSingle {p : PackedBuffer} (h : p.Fitting)
    (hsingle : p.isSingle) (order : ChannelOrder) :
    order.arrange p.positions = [p.buffer.bytes] := by
  have hcount : p.channelCount = 1 := by simpa [isSingle] using hsingle
  have hlength := h.length_bytes
  rw [hcount, Nat.mul_one] at hlength
  have hone : ∀ channel ∈ [p.buffer.bytes],
      channel.length = p.elementType.size * p.elementCount := by
    simpa using hlength
  have hsplit := Interleave.split_merge hone
  rw [Interleave.merge_singleton hlength] at hsplit
  have hpositions : p.positions = [p.buffer.bytes] := by
    rw [positions, hcount]
    exact hsplit
  rw [hpositions, ChannelOrder.arrange_singleton]

/-- Unpacking succeeds: the channels are the bytes taken apart and arranged. -/
theorem exists_unpack (p : PackedBuffer) (order : ChannelOrder) :
    ∃ m, p.unpack order = .ok m ∧ m.elementType = p.elementType ∧
      m.dimensions = p.dimensions.tail ∧
      m.channels.map View.bytes = order.arrange p.positions := by
  have h := p.fitting
  unfold unpack
  by_cases hsingle : p.isSingle = true
  · have hcount : p.channelCount = 1 := by simpa [isSingle] using hsingle
    have hsize : (View.whole p.buffer).size =
        p.elementType.size * Matrix.volume p.dimensions.tail := by
      have hbuffer := h.size
      rwa [hcount, Nat.mul_one] at hbuffer
    obtain ⟨m, hmake, htype, hdimensions, hchannels⟩ :=
      h.exists_make [View.whole p.buffer] hcount.symm (by simpa using hsize)
    refine ⟨m, ?_, htype, hdimensions, ?_⟩
    · rw [if_pos hsingle]
      exact hmake
    · rw [hchannels, h.arrange_positions_of_isSingle hsingle, List.map_singleton,
        View.bytes_whole]
  · have hlengths : ∀ channel ∈ order.arrange p.positions,
        channel.length = p.elementType.size * Matrix.volume p.dimensions.tail := by
      intro channel hmem
      rw [← h.elementCount]
      exact Interleave.length_of_mem_split h.length_bytes channel
        (ChannelOrder.mem_of_mem_arrange hmem)
    obtain ⟨m, hmake, htype, hdimensions, hchannels⟩ :=
      h.exists_make ((order.arrange p.positions).map View.ofBytes)
        (by rw [List.length_map, ChannelOrder.length_arrange, positions, Interleave.length_split])
        (by rw [List.forall_mem_map]; exact hlengths)
    refine ⟨m, ?_, htype, hdimensions, ?_⟩
    · have harrange : (order.channels p.channelCount).map (fun position =>
          p.positions.getD position []) = order.arrange p.positions := by
        rw [ChannelOrder.arrange, positions, Interleave.length_split]
      rw [if_neg hsingle]
      show Matrix.ofChannels p.elementType p.dimensions.tail _ = .ok m
      rw [harrange]
      exact hmake
    · have hback : View.bytes ∘ View.ofBytes = id := funext View.bytes_ofBytes
      rw [hchannels, List.map_map, hback, List.map_id]

end PackedBuffer

/-! ## Packing -/

namespace Source

variable {s : Source} {elements : Nat}

/-- The number of bytes of the packed form, however large. -/
def fullSize (s : Source) : Nat :=
  s.elementType.size * s.channelCount * Matrix.volume s.dimensions

/-- The error of a source whose packed form is too large. -/
def tooLarge (s : Source) : MatrixError :=
  .capacity s.channelCount (s.elementCount?.getD (Matrix.wordCount - 1)) s.elementType.size

/-- If the elements of a channel can be counted, the size is found unless it is too large; whether
a product on the way fits a machine word does not matter beside that. -/
theorem packedSize_of_elementCount? (h : s.elementCount? = some elements) :
    s.packedSize =
      if s.fullSize ≤ Matrix.maxPackedBytes then .ok s.fullSize else .error s.tooLarge := by
  have hvolume : elements = Matrix.volume s.dimensions := by
    rw [Matrix.eq_of_product? h, Nat.one_mul]
  have hwords := Matrix.bind_word?_eq_some_iff (elements * s.channelCount) s.elementType.size
  have hproduct : elements * s.channelCount * s.elementType.size = s.fullSize := by
    rw [fullSize, hvolume, Nat.mul_comm, Nat.mul_comm (Matrix.volume _), Nat.mul_assoc]
  unfold packedSize
  rw [tooLarge, h]
  simp only [Option.bind_eq_bind, Option.bind_some]
  cases htotal : (Matrix.word? (elements * s.channelCount)).bind fun n =>
      Matrix.word? (n * s.elementType.size) with
  | some total =>
    obtain ⟨-, -, heq⟩ := (hwords total).1 htotal
    rw [← heq.symm.trans hproduct]
  | none =>
    -- a product that does not fit a machine word is far too large for a packed buffer
    have hlarge : ¬s.fullSize ≤ Matrix.maxPackedBytes := by
      intro hmax
      have hlt : s.fullSize < Matrix.wordCount := Nat.lt_of_le_of_lt hmax (by decide)
      have hle : elements * s.channelCount ≤ s.fullSize := by
        rw [← hproduct]
        exact Nat.le_mul_of_pos_right _ s.elementType.size_pos
      have hsome := (hwords s.fullSize).2
        ⟨Nat.lt_of_le_of_lt hle hlt, hproduct.symm ▸ hlt, hproduct⟩
      cases htotal.symm.trans hsome
    rw [if_neg hlarge]

/-- Channels are interleaved only if the packed form is not too large. -/
theorem exists_packedSize {order : ChannelOrder} {bytes : List UInt8}
    (h : s.interleave order = .ok bytes) : ∃ total, s.packedSize = .ok total := by
  unfold interleave at h
  by_cases hnone : s.channelCount = 0
  · rw [if_pos hnone] at h
    cases h
  · rw [if_neg hnone] at h
    obtain ⟨total, htotal, -⟩ := exists_of_bind_eq_ok h
    exact ⟨total, htotal⟩

end Source

namespace Matrix

variable {m : Matrix} {order : ChannelOrder} {total : Nat}

/-- The bytes of the channels. -/
def channelList (m : Matrix) : List (List UInt8) := m.channels.map View.bytes

theorem length_of_mem_arrange (m : Matrix) (order : ChannelOrder) :
    ∀ channel ∈ order.arrange m.channelList,
      channel.length = m.elementType.size * volume m.dimensions := by
  intro channel hmem
  obtain ⟨view, hview, rfl⟩ := List.mem_map.1 (ChannelOrder.mem_of_mem_arrange hmem)
  rw [view.length_bytes, m.fitting.size view hview]

/-- The packed form has as many bytes as all channels together, unless these are too many. -/
theorem packedSize_eq_ok_iff (m : Matrix) (total : Nat) :
    m.source.packedSize = .ok total ↔
      total = m.elementType.size * m.channels.length * volume m.dimensions ∧
        total ≤ maxPackedBytes := by
  have hfull : m.source.fullSize =
      m.elementType.size * m.channels.length * volume m.dimensions := rfl
  have helements : m.source.elementCount? = some (volume m.dimensions) := m.fitting.volume
  rw [Source.packedSize_of_elementCount? helements, ← hfull]
  split_ifs with hmax
  · constructor
    · intro hok
      cases hok
      exact ⟨rfl, hmax⟩
    · rintro ⟨rfl, -⟩
      rfl
  · constructor
    · intro hok
      cases hok
    · rintro ⟨rfl, hle⟩
      exact absurd hle hmax

theorem channel_of_lt (m : Matrix) {i : Nat} (hi : i < m.channels.length) :
    m.source.channel i = .ok m.channels[i] := by
  have hget : m.source.channels[i]? = some m.channels[i] := List.getElem?_eq_getElem hi
  unfold Source.channel
  rw [hget]

theorem channelBytes_of_lt (m : Matrix) {i : Nat} (hi : i < m.channels.length) :
    m.source.channelBytes (m.elementType.size * volume m.dimensions) i =
      .ok (m.channelList.getD i []) := by
  have hsize := m.fitting.size m.channels[i] (List.getElem_mem hi)
  have hbytes : m.channelList.getD i [] = m.channels[i].bytes := by
    simp [channelList, List.getElem?_eq_getElem hi]
  unfold Source.channelBytes
  rw [m.channel_of_lt hi, hbytes]
  exact if_pos hsize

/-- The channels are interleaved if the packed form is not too large. -/
theorem interleave_of_packedSize (h : m.source.packedSize = .ok total) :
    m.source.interleave order =
      .ok (Interleave.merge m.elementType.size (volume m.dimensions)
        (order.arrange m.channelList)) := by
  have hpos : 0 < m.source.channelCount := m.fitting.channels_pos
  obtain ⟨htotal, -⟩ := (m.packedSize_eq_ok_iff total).1 h
  have hexpected : total / m.source.channelCount = m.elementType.size * volume m.dimensions := by
    rw [htotal, Nat.mul_right_comm]
    exact Nat.mul_div_cancel _ hpos
  have hrounds : m.elementType.size * volume m.dimensions / m.source.elementType.size =
      volume m.dimensions :=
    Nat.mul_div_cancel_left _ m.elementType.size_pos
  have hchannels : (order.channels m.source.channelCount).mapM
      (m.source.channelBytes (m.elementType.size * volume m.dimensions)) =
        .ok (order.arrange m.channelList) := by
    rw [ChannelOrder.arrange, channelList, List.length_map]
    apply mapM_eq_ok_map
    intro i hi
    simp only [ChannelOrder.channels, List.mem_map, List.mem_range] at hi
    obtain ⟨position, hposition, rfl⟩ := hi
    exact m.channelBytes_of_lt (order.channelAt_lt hposition)
  unfold Source.interleave
  rw [if_neg (Nat.ne_of_gt hpos), h]
  show ((order.channels m.source.channelCount).mapM
    (m.source.channelBytes (total / m.source.channelCount)) >>= fun channels =>
      .ok (Interleave.merge m.elementType.size
        (total / m.source.channelCount / m.source.elementType.size) channels)) = _
  rw [hexpected, hchannels, hrounds]
  rfl

theorem merge_of_single {view : View} (h : m.channels = [view]) (order : ChannelOrder) :
    Interleave.merge m.elementType.size (volume m.dimensions) (order.arrange m.channelList) =
      view.bytes := by
  have hlength : view.bytes.length = m.elementType.size * volume m.dimensions := by
    rw [view.length_bytes]
    exact m.fitting.size view (by simp [h])
  rw [channelList, h, List.map_singleton, ChannelOrder.arrange_singleton,
    Interleave.merge_singleton hlength]

theorem channel_of_single {view : View} (h : m.channels = [view]) :
    m.source.channel 0 = .ok view := by
  rw [m.channel_of_lt m.fitting.channels_pos]
  simp [h]

/-- What packing gives: the channels arranged and merged. -/
theorem of_pack_eq_ok {p : PackedBuffer} (h : m.source.pack order = .ok p) :
    p.elementType = m.elementType ∧
      p.dimensions = m.channels.length.toUInt64 :: m.dimensions ∧
      p.buffer.bytes = Interleave.merge m.elementType.size (volume m.dimensions)
        (order.arrange m.channelList) := by
  unfold Source.pack at h
  by_cases hsingle : m.source.channelCount = 1
  · obtain ⟨view, hview⟩ := List.length_eq_one_iff.1 hsingle
    rw [if_pos hsingle, channel_of_single hview] at h
    obtain ⟨htype, hdimensions, hbytes⟩ := PackedBuffer.of_ofView_eq_ok h
    exact ⟨htype, hdimensions, hbytes.trans (merge_of_single hview order).symm⟩
  · rw [if_neg hsingle] at h
    obtain ⟨bytes, hinterleave, hpacked⟩ := exists_of_bind_eq_ok h
    obtain ⟨htype, hdimensions, hbytes⟩ := PackedBuffer.of_ofView_eq_ok hpacked
    obtain ⟨total, htotal⟩ := Source.exists_packedSize hinterleave
    rw [interleave_of_packedSize htotal] at hinterleave
    cases hinterleave
    refine ⟨htype, hdimensions, ?_⟩
    rw [hbytes, View.bytes_ofBytes]

/-- A view of the bytes that the channels have together is a packed buffer of the matrix. -/
theorem exists_ofView {view : View} (hview : view.size = total)
    (hsize : product? m.elementType.size (m.channels.length.toUInt64 :: m.dimensions) =
      some total) :
    ∃ p, PackedBuffer.ofView m.elementType (m.channels.length.toUInt64 :: m.dimensions) view =
      .ok p := by
  have hcount := toNat_toUInt64 m.fitting.channels_le
  have hpos : m.channels.length.toUInt64 ≠ 0 := by
    intro hzero
    rw [hzero] at hcount
    exact Nat.ne_of_lt m.fitting.channels_pos hcount
  have hfault : PackedBuffer.fault? m.elementType (m.channels.length.toUInt64 :: m.dimensions)
      view.toBuffer.size = none := by
    rw [PackedBuffer.fault?_eq_none_iff, hcount, view.size_toBuffer, hview]
    exact ⟨m.fitting.dimensions, ⟨hpos, m.fitting.channels_le⟩, hsize⟩
  exact ⟨_, PackedBuffer.ofView_eq_ok hfault⟩

/-- Packing succeeds if the packed form fits together and is not too large. -/
theorem exists_pack (hsize : product? m.elementType.size
      (m.channels.length.toUInt64 :: m.dimensions) = some total) (hmax : total ≤ maxPackedBytes)
    (order : ChannelOrder) : ∃ p, m.source.pack order = .ok p := by
  have hcount := toNat_toUInt64 m.fitting.channels_le
  have htotal : total = m.elementType.size * m.channels.length * volume m.dimensions := by
    rw [eq_of_product? hsize, volume_cons, hcount, Nat.mul_assoc]
  unfold Source.pack
  by_cases hsingle : m.source.channelCount = 1
  · obtain ⟨view, hview⟩ := List.length_eq_one_iff.1 hsingle
    rw [if_pos hsingle, channel_of_single hview]
    have hbytes : view.size = total := by
      rw [m.fitting.size view (by simp [hview]), htotal, hview, List.length_singleton, Nat.mul_one]
    exact exists_ofView hbytes hsize
  · have hpacked := (m.packedSize_eq_ok_iff total).2 ⟨htotal, hmax⟩
    rw [if_neg hsingle, interleave_of_packedSize hpacked]
    apply exists_ofView _ hsize
    rw [View.size_ofBytes, Interleave.length_merge (m.length_of_mem_arrange order),
      ChannelOrder.length_arrange, channelList, List.length_map, htotal]

/-- The bytes at the positions of the packed form are the channels in the channel order. -/
theorem positions_of_pack {p : PackedBuffer} (h : m.source.pack order = .ok p) :
    p.positions = order.arrange m.channelList := by
  obtain ⟨htype, hdimensions, hbytes⟩ := of_pack_eq_ok h
  have hcount : p.channelCount = (order.arrange m.channelList).length := by
    rw [PackedBuffer.channelCount, hdimensions, ChannelOrder.length_arrange, channelList,
      List.length_map]
    exact toNat_toUInt64 m.fitting.channels_le
  have helements : p.elementCount = volume m.dimensions := by
    rw [p.fitting.elementCount, hdimensions, List.tail_cons]
  rw [PackedBuffer.positions, hcount, helements, htype, hbytes]
  exact Interleave.split_merge (m.length_of_mem_arrange order)

end Matrix

/-- A packed buffer that is not too large can be packed again when it has been unpacked. -/
theorem PackedBuffer.exists_pack_of_unpack {p : PackedBuffer} {m : Matrix} {order : ChannelOrder}
    (hmax : p.buffer.size ≤ Matrix.maxPackedBytes) (htype : m.elementType = p.elementType)
    (hdimensions : m.dimensions = p.dimensions.tail)
    (hchannels : m.channels.map View.bytes = order.arrange p.positions) :
    ∃ p', m.source.pack order = .ok p' ∧ p'.elementType = p.elementType ∧
      p'.dimensions = p.dimensions ∧ p'.buffer.bytes = p.buffer.bytes := by
  have hcount : m.channels.length = p.channelCount := by
    have hlength := congrArg List.length hchannels
    rwa [List.length_map, ChannelOrder.length_arrange, positions, Interleave.length_split]
      at hlength
  have hsame : m.channels.length.toUInt64 :: m.dimensions = p.dimensions := by
    rw [hcount, hdimensions]
    exact p.fitting.dimensions.symm
  have hsize : Matrix.product? m.elementType.size (m.channels.length.toUInt64 :: m.dimensions) =
      some p.buffer.size := by
    rw [hsame, htype]
    exact p.fitting.product
  obtain ⟨p', hpack⟩ := Matrix.exists_pack hsize hmax order
  obtain ⟨htype', hdimensions', hbytes⟩ := Matrix.of_pack_eq_ok hpack
  refine ⟨p', hpack, htype'.trans htype, hdimensions'.trans hsame, ?_⟩
  rw [hbytes, Matrix.channelList, hchannels, ChannelOrder.arrange_arrange, htype, hdimensions,
    ← p.fitting.elementCount]
  exact Interleave.merge_split p.fitting.length_bytes

/-- Packing and unpacking in one order are inverse to each other. A matrix that can be packed is
unpacked with the same bytes in every channel, and a packed buffer that is not too large can be
unpacked and packed again, with the same bytes. -/
theorem pack_unpack_inverse :
    (∀ (m : Matrix) (order : ChannelOrder) (p : PackedBuffer), m.source.pack order = .ok p →
      ∃ m', p.unpack order = .ok m' ∧ m'.elementType = m.elementType ∧
        m'.dimensions = m.dimensions ∧
        m'.channels.map View.bytes = m.channels.map View.bytes) ∧
    ∀ (p : PackedBuffer) (order : ChannelOrder), p.buffer.size ≤ Matrix.maxPackedBytes →
      ∃ m, p.unpack order = .ok m ∧ ∃ p', m.source.pack order = .ok p' ∧
        p'.elementType = p.elementType ∧ p'.dimensions = p.dimensions ∧
        p'.buffer.bytes = p.buffer.bytes := by
  constructor
  · intro m order p hpack
    obtain ⟨htype, hdimensions, -⟩ := Matrix.of_pack_eq_ok hpack
    obtain ⟨m', hunpack, htype', hdimensions', hchannels⟩ := p.exists_unpack order
    refine ⟨m', hunpack, htype'.trans htype, ?_, ?_⟩
    · rw [hdimensions', hdimensions, List.tail_cons]
    · rw [hchannels, Matrix.positions_of_pack hpack, ChannelOrder.arrange_arrange,
        Matrix.channelList]
  · intro p order hmax
    obtain ⟨m, hunpack, htype, hdimensions, hchannels⟩ := p.exists_unpack order
    exact ⟨m, hunpack, PackedBuffer.exists_pack_of_unpack hmax htype hdimensions hchannels⟩

/-- Three channels of two elements, of which the last one starts inside its buffer. -/
def threeChannels : Matrix where
  elementType := .u16
  dimensions := [2]
  channels := [.ofBytes [1, 2, 3, 4], .ofBytes [5, 6, 7, 8],
    ⟨{ bytes := [0, 9, 10, 11, 12] }, 1, 4, by decide⟩]
  sound := by decide

/-- The same channels packed, the third one first. -/
def threeChannelsPacked : PackedBuffer where
  elementType := .u16
  dimensions := [3, 2]
  buffer := { bytes := [9, 10, 5, 6, 1, 2, 11, 12, 7, 8, 3, 4] }
  sound := by decide

theorem pack_unpack_three_channels :
    threeChannels.source.pack .standard = .ok threeChannelsPacked ∧
      (∃ m', threeChannelsPacked.unpack .standard = .ok m' ∧ m'.elementType = .u16 ∧
        m'.dimensions = [2] ∧
        m'.channels.map View.bytes = [[1, 2, 3, 4], [5, 6, 7, 8], [9, 10, 11, 12]]) ∧
      ∃ m, threeChannelsPacked.unpack .natural = .ok m ∧ ∃ p', m.source.pack .natural = .ok p' ∧
        p'.elementType = .u16 ∧ p'.dimensions = [3, 2] ∧
        p'.buffer.bytes = threeChannelsPacked.buffer.bytes :=
  have hpack : threeChannels.source.pack .standard = .ok threeChannelsPacked := rfl
  ⟨hpack, pack_unpack_inverse.1 threeChannels .standard threeChannelsPacked hpack,
    pack_unpack_inverse.2 threeChannelsPacked .natural (by decide)⟩

end ExecutorHost
