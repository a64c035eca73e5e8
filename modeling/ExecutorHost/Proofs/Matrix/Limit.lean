import ExecutorHost.Proofs.Matrix.Conversion

/-!
# The limit of packed buffers

There are three ways to a packed buffer: a view is wrapped, the single channel of a source is handed
on as it is, or several channels are interleaved. The size is compared with the limit where channels
are interleaved, and nowhere else. So a buffer beyond the limit is made from a view that has as many
bytes itself and from nothing else, and several channels that are too large together are refused.
-/

namespace ExecutorHost

/-! ## Sources that are too large -/

namespace Source

variable {s : Source} {order : ChannelOrder}

theorem packedSize_cases (s : Source) :
    (s.packedSize = .ok s.fullSize ∧ s.fullSize ≤ Matrix.maxPackedBytes) ∨
      s.packedSize = .error s.tooLarge := by
  cases helements : s.elementCount? with
  | none =>
    right
    unfold packedSize
    rw [tooLarge, helements]
    rfl
  | some elements =>
    rw [packedSize_of_elementCount? helements]
    by_cases hmax : s.fullSize ≤ Matrix.maxPackedBytes
    · exact .inl ⟨if_pos hmax, hmax⟩
    · exact .inr (if_neg hmax)

/-- Channels are interleaved only if they are not too large together. -/
theorem fullSize_le_of_interleave {bytes : List UInt8} (h : s.interleave order = .ok bytes) :
    s.fullSize ≤ Matrix.maxPackedBytes := by
  obtain ⟨total, htotal⟩ := exists_packedSize h
  rcases s.packedSize_cases with ⟨-, hmax⟩ | herror
  · exact hmax
  · rw [herror] at htotal
    cases htotal

/-- Several channels that are too large together are refused, whatever they are. -/
theorem pack_of_tooLarge (hmany : s.channelCount ≠ 1) (hlarge : Matrix.maxPackedBytes < s.fullSize)
    (order : ChannelOrder) : s.pack order = .error s.tooLarge := by
  have hsome : s.channelCount ≠ 0 := by
    intro hnone
    rw [fullSize, hnone, Nat.mul_zero, Nat.zero_mul] at hlarge
    exact Nat.not_lt_zero _ hlarge
  have herror : s.packedSize = .error s.tooLarge := by
    rcases s.packedSize_cases with ⟨-, hmax⟩ | herror
    · omega
    · exact herror
  have hinterleave : s.interleave order = .error s.tooLarge := by
    unfold interleave
    rw [if_neg hsome, herror]
    rfl
  unfold pack
  rw [if_neg hmany, hinterleave]
  rfl

end Source

/-! ## The ways to a packed buffer -/

namespace PackedBuffer

/-- What makes a packed buffer. -/
inductive Call
  /-- A view is wrapped. -/
  | wrap (elementType : ElementType) (dimensions : List UInt64) (view : View)
  /-- A source is packed. -/
  | pack (source : Source) (order : ChannelOrder)

namespace Call

/-- The packed buffer that is made. -/
def run : Call → Except MatrixError PackedBuffer
  | wrap elementType dimensions view => ofView elementType dimensions view
  | pack source order => source.pack order

def elementType : Call → ElementType
  | wrap elementType _ _ => elementType
  | pack source _ => source.elementType

/-- The number of channels and the dimensions of one channel. -/
def dimensions : Call → List UInt64
  | wrap _ dimensions _ => dimensions
  | pack source _ => source.channelCount.toUInt64 :: source.dimensions

/-- The number of bytes that are asked for. -/
def fullSize : Call → Nat
  | wrap elementType dimensions _ => elementType.size * Matrix.volume dimensions
  | pack source _ => source.fullSize

/-- The view that is handed on as it is. -/
def view? : Call → Option View
  | wrap _ _ view => some view
  | pack source _ => if source.channelCount = 1 then source.channels[0]? else none

/-- No buffer is larger than the limit, and what is larger is refused. -/
def WithinLimit (c : Call) : Prop :=
  (∀ p, c.run = .ok p → p.buffer.size ≤ Matrix.maxPackedBytes) ∧
    (Matrix.maxPackedBytes < c.fullSize → ∃ e, c.run = .error e)

/-- A view is handed on that fits the dimensions and has more bytes than the limit. -/
structure Oversized (c : Call) (view : View) : Prop where
  handed : c.view? = some view
  channels_pos : 0 < (c.dimensions.headD 0).toNat
  channels_le : (c.dimensions.headD 0).toNat ≤ Matrix.maxChannels
  tail : c.dimensions.tail ≠ []
  size : view.size = c.elementType.size * Matrix.volume c.dimensions
  size_lt : view.size < Matrix.wordCount
  large : Matrix.maxPackedBytes < view.size

variable {c : Call} {view : View} {p : PackedBuffer}

theorem run_of_view? (h : c.view? = some view) :
    c.run = ofView c.elementType c.dimensions view := by
  cases c with
  | wrap elementType dimensions wrapped =>
    cases h
    rfl
  | pack source order =>
    obtain ⟨hsingle, hfirst⟩ := Option.ite_none_right_eq_some.1 h
    have hchannel : source.channel 0 = .ok view := by
      unfold Source.channel
      rw [hfirst]
    show source.pack order = _
    unfold Source.pack
    rw [if_pos hsingle, hchannel]
    rfl

/-- A packed buffer is the view that is handed on, or else it is within the limit. -/
theorem of_run_eq_ok (h : c.run = .ok p) :
    (∃ view, c.view? = some view) ∨
      p.buffer.size ≤ c.fullSize ∧ c.fullSize ≤ Matrix.maxPackedBytes := by
  cases c with
  | wrap elementType dimensions view => exact .inl ⟨view, rfl⟩
  | pack source order =>
    have hpack : source.pack order = .ok p := h
    unfold Source.pack at hpack
    by_cases hsingle : source.channelCount = 1
    · left
      rw [if_pos hsingle] at hpack
      obtain ⟨view, hchannel, -⟩ := exists_of_bind_eq_ok hpack
      unfold Source.channel at hchannel
      split at hchannel
      · rename_i found hfound
        exact ⟨found, (if_pos hsingle).trans hfound⟩
      · cases hchannel
    · right
      rw [if_neg hsingle] at hpack
      obtain ⟨bytes, hinterleave, hview⟩ := exists_of_bind_eq_ok hpack
      obtain ⟨htype, hdimensions, -⟩ := of_ofView_eq_ok hview
      have hsize := Matrix.eq_of_product? p.fitting.product
      rw [htype, hdimensions, Matrix.volume_cons, ← Nat.mul_assoc] at hsize
      refine ⟨?_, Source.fullSize_le_of_interleave hinterleave⟩
      rw [hsize]
      apply Nat.mul_le_mul_right
      apply Nat.mul_le_mul_left
      exact (UInt64.toNat_ofNat' ..).trans_le (Nat.mod_le _ _)

/-- Handing on a view asks for the bytes of its dimensions. -/
theorem fullSize_of_view? (h : c.view? = some view) :
    c.fullSize = c.elementType.size * Matrix.volume c.dimensions := by
  cases c with
  | wrap elementType dimensions wrapped => rfl
  | pack source order =>
    obtain ⟨hsingle, -⟩ := Option.ite_none_right_eq_some.1 h
    show source.fullSize = source.elementType.size *
      Matrix.volume (source.channelCount.toUInt64 :: source.dimensions)
    rw [Source.fullSize, Matrix.volume_cons, hsingle, Nat.mul_assoc]
    rfl

/-- Nothing is checked for a view but that it fits the dimensions. -/
theorem Oversized.exists_run (h : c.Oversized view) :
    ∃ p, c.run = .ok p ∧ p.buffer.bytes = view.bytes ∧ p.buffer.size = view.size := by
  have hcons : c.dimensions = c.dimensions.headD 0 :: c.dimensions.tail := by
    cases hdimensions : c.dimensions with
    | nil =>
      have htail := h.tail
      rw [hdimensions] at htail
      exact absurd rfl htail
    | cons count rest => rfl
  have hnonzero : 0 ∉ c.dimensions := by
    intro hzero
    have hsize := h.size
    rw [Matrix.volume_eq_zero_of_mem hzero, Nat.mul_zero] at hsize
    have hlarge := h.large
    omega
  have hproduct : Matrix.product? c.elementType.size c.dimensions = some view.size := by
    have hstart : c.elementType.size < Matrix.wordCount := by cases c.elementType <;> decide
    cases hproduct : Matrix.product? c.elementType.size c.dimensions with
    | none =>
      have hle := (Matrix.product?_eq_none_iff hstart c.dimensions).1 hproduct
      rw [Matrix.leading_eq_self hnonzero, ← h.size] at hle
      have hlt := h.size_lt
      omega
    | some total => rw [Matrix.eq_of_product? hproduct, h.size]
  have hfault : fault? c.elementType c.dimensions view.toBuffer.size = none := by
    rw [hcons, fault?_eq_none_iff, ← hcons, view.size_toBuffer]
    refine ⟨h.tail, ⟨?_, h.channels_le⟩, hproduct⟩
    intro hzero
    have hpos := h.channels_pos
    rw [hzero] at hpos
    exact absurd hpos (by decide)
  refine ⟨_, (run_of_view? h.handed).trans (ofView_eq_ok hfault), ?_, ?_⟩
  · exact view.bytes_toBuffer
  · exact view.size_toBuffer

theorem not_withinLimit_of_oversized (h : c.Oversized view) : ¬c.WithinLimit := by
  rintro ⟨hmax, -⟩
  obtain ⟨p, hrun, -, hsize⟩ := h.exists_run
  have hle := hmax p hrun
  have hlarge := h.large
  omega

/-- A buffer beyond the limit is a view that was handed on. -/
theorem exists_oversized (h : c.run = .ok p)
    (hlarge : Matrix.maxPackedBytes < p.buffer.size ∨ Matrix.maxPackedBytes < c.fullSize) :
    ∃ view, c.Oversized view := by
  rcases of_run_eq_ok h with ⟨view, hview⟩ | ⟨hsize, hmax⟩
  · rw [run_of_view? hview] at h
    obtain ⟨htype, hdimensions, hbytes⟩ := of_ofView_eq_ok h
    have hfitting := p.fitting
    have hsize : p.buffer.size = view.size :=
      (congrArg List.length hbytes).trans view.length_bytes
    have hproduct := Matrix.eq_of_product? hfitting.product
    rw [htype, hdimensions] at hproduct
    rw [fullSize_of_view? hview, ← hproduct, or_self] at hlarge
    refine ⟨view, hview, ?_, ?_, ?_, hsize ▸ hproduct, hsize ▸ hfitting.size_lt, hsize ▸ hlarge⟩
    · exact hdimensions ▸ hfitting.channelCount_pos
    · exact hdimensions ▸ hfitting.channelCount_le
    · exact hdimensions ▸ hfitting.dimensions_tail
  · omega

/-- Making a packed buffer keeps to the limit unless a view is handed on that fits its dimensions
and is too large itself; it is then wrapped like any other. Several channels that are too large
together are refused for their size. -/
theorem withinLimit_iff (c : Call) :
    (c.WithinLimit ↔ ¬∃ view, c.Oversized view) ∧
      (∀ view, c.Oversized view → ∃ p, c.run = .ok p ∧ p.buffer.bytes = view.bytes ∧
        Matrix.maxPackedBytes < p.buffer.size) ∧
      ∀ source order, c = .pack source order → source.channelCount ≠ 1 →
        Matrix.maxPackedBytes < source.fullSize → c.run = .error source.tooLarge := by
  refine ⟨⟨?_, ?_⟩, ?_, ?_⟩
  · rintro hwithin ⟨view, h⟩
    exact not_withinLimit_of_oversized h hwithin
  · intro hnone
    constructor
    · intro p hrun
      by_contra hlarge
      exact hnone (exists_oversized hrun (.inl (by omega)))
    · intro hlarge
      cases hrun : c.run with
      | error e => exact ⟨e, rfl⟩
      | ok p => exact absurd (exists_oversized hrun (.inr hlarge)) hnone
  · intro view h
    obtain ⟨p, hrun, hbytes, hsize⟩ := h.exists_run
    exact ⟨p, hrun, hbytes, hsize ▸ h.large⟩
  · rintro source order rfl hmany hlarge
    exact Source.pack_of_tooLarge hmany hlarge order

/-! ## Views of zeros -/

/-- The single channel of a matrix is handed on. -/
theorem oversized_of_single {m : Matrix} (h : m.channels = [view])
    (hlarge : Matrix.maxPackedBytes < view.size) (order : ChannelOrder) :
    (pack m.source order).Oversized view := by
  obtain ⟨-, -, -, hlt, hsizes⟩ := (Matrix.fault?_eq_none_iff _ _ _).1 m.sound
  have hcount : m.source.channelCount = 1 := congrArg List.length h
  have hview : view.size = Matrix.volume m.dimensions * m.elementType.size :=
    hsizes view.size (by simp [h])
  have hhead : ((pack m.source order).dimensions.headD 0).toNat = 1 := by
    show (m.source.channelCount.toUInt64).toNat = 1
    rw [hcount]
    rfl
  refine ⟨?_, ?_, ?_, m.fitting.dimensions, ?_, hview ▸ hlt, hlarge⟩
  · show (if m.source.channelCount = 1 then m.channels[0]? else none) = some view
    rw [if_pos hcount, h]
    rfl
  · rw [hhead]
    exact Nat.one_pos
  · rw [hhead]
    decide
  · show _ = m.elementType.size * Matrix.volume (m.source.channelCount.toUInt64 :: m.dimensions)
    rw [hview, Matrix.volume_cons, hcount, Nat.mul_comm]
    exact congrArg _ (Nat.one_mul _).symm

/-- Bytes that are all zero. -/
def zeros (count : Nat) : View := .ofBytes (List.replicate count 0)

theorem size_zeros (count : Nat) : (zeros count).size = count := by
  rw [zeros, View.size_ofBytes, List.length_replicate]

theorem volume_row {count : Nat} (h : count < Matrix.wordCount) :
    Matrix.volume [count.toUInt64] = count := by
  rw [Matrix.volume_cons]
  show count.toUInt64.toNat * 1 = count
  rw [Nat.mul_one]
  exact UInt64.toNat_ofNat_of_lt h

theorem oversized_zeros (count : Nat) (hlarge : Matrix.maxPackedBytes < count)
    (hword : count < Matrix.wordCount) :
    (wrap .u8 [1, count.toUInt64] (zeros count)).Oversized (zeros count) where
  handed := rfl
  channels_pos := Nat.one_pos
  channels_le := by
    show 1 ≤ Matrix.maxChannels
    decide
  tail := List.cons_ne_nil _ _
  size := by
    show _ = 1 * Matrix.volume [1, count.toUInt64]
    rw [Nat.one_mul, Matrix.volume_cons, volume_row hword, size_zeros]
    exact (Nat.one_mul count).symm
  size_lt := by rwa [size_zeros]
  large := by rwa [size_zeros]

/-- A row of zeros is a matrix, however long it is. -/
theorem exists_row {count : Nat} (hword : count < Matrix.wordCount) :
    ∃ m : Matrix, m.elementType = .u8 ∧ m.dimensions = [count.toUInt64] ∧
      m.channels = [zeros count] := by
  have hcount : 1 * count.toUInt64.toNat = count := by
    rw [Nat.one_mul]
    exact UInt64.toNat_ofNat_of_lt hword
  have hproduct : Matrix.product? 1 [count.toUInt64] = some count := by
    rw [Matrix.product?_cons, hcount]
    exact ⟨hword, rfl⟩
  have hsize : count * ElementType.u8.size = count := Nat.mul_one count
  have hfault : Matrix.fault? .u8 [count.toUInt64] ([zeros count].map (·.size)) = none := by
    rw [Matrix.fault?_eq_none_iff, volume_row hword, hsize, List.map_singleton, size_zeros]
    have hfew : 1 ≤ Matrix.maxChannels := by decide
    exact ⟨List.cons_ne_nil _ _, ⟨List.cons_ne_nil _ _, hfew⟩, hproduct, hword,
      fun size hmem => List.mem_singleton.1 hmem⟩
  exact ⟨⟨.u8, [count.toUInt64], [zeros count], hfault⟩, rfl, rfl, rfl⟩

theorem withinLimit_iff_of_zeros :
    (wrap .u8 [1, 2147483648] (zeros 2147483648)).Oversized (zeros 2147483648) ∧
      (∃ p, (wrap .u8 [1, 2147483648] (zeros 2147483648)).run = .ok p ∧
        p.buffer.bytes = (zeros 2147483648).bytes ∧ Matrix.maxPackedBytes < p.buffer.size) ∧
      (pack ⟨.u8, [1073741824], 2, []⟩ .standard).run =
        .error (.capacity 2 1073741824 1) :=
  have hzeros : (wrap .u8 [1, 2147483648] (zeros 2147483648)).Oversized (zeros 2147483648) :=
    oversized_zeros 2147483648 (by decide) (by decide)
  ⟨hzeros,
    (withinLimit_iff (wrap .u8 [1, 2147483648] (zeros 2147483648))).2.1 (zeros 2147483648) hzeros,
    (withinLimit_iff (pack ⟨.u8, [1073741824], 2, []⟩ .standard)).2.2 _ _ rfl
      (by decide) (by decide)⟩

/-- Neither a wrapped view nor the single channel of a matrix is held to the limit. -/
theorem zeros_beyond_limit :
    ¬(wrap .u8 [1, 2147483648] (zeros 2147483648)).WithinLimit ∧
      ∃ m : Matrix, m.elementType = .u8 ∧ m.dimensions = [2147483648] ∧
        m.channels = [zeros 2147483648] ∧ ¬(pack m.source .standard).WithinLimit := by
  constructor
  · exact not_withinLimit_of_oversized (oversized_zeros 2147483648 (by decide) (by decide))
  · have hword : 2147483648 < Matrix.wordCount := by decide
    obtain ⟨m, htype, hdimensions, hchannels⟩ := exists_row hword
    have hlarge : Matrix.maxPackedBytes < (zeros 2147483648).size := by
      rw [size_zeros]
      decide
    exact ⟨m, htype, hdimensions, hchannels,
      not_withinLimit_of_oversized (oversized_of_single hchannels hlarge .standard)⟩

end Call

end PackedBuffer

end ExecutorHost
