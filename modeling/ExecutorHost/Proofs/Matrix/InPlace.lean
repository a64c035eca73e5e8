import Mathlib.Tactic.Ring
import ExecutorHost.Proofs.Matrix.Packed

/-!
# Interleaving in place

A machine interleaves channels by copying them one after another into one buffer of zeros: the
buffer is cut into strides, one for each round, and a channel gives an element to its position in
every stride. On the way products could overflow a word, a divisor could be zero, and a part could
lie outside its buffer; here each of these halts the machine. It never halts, and the buffer is the
merged form of the channels: after some of them it is that of these channels and of zeros for the
others. Main statement: `Matrix.interleave_layout`.
-/

namespace ExecutorHost

/-! ## A machine that copies -/

/-- Why the machine halts. -/
inductive Halt
  /-- A number does not fit a machine word. -/
  | overflow
  /-- Something is divided, or cut into parts, by zero. -/
  | zero
  /-- A part is not inside its buffer. -/
  | outside
  /-- A part and what is to be copied into it do not have the same size. -/
  | unequal

namespace InPlace

def word (n : Nat) : Except Halt Nat :=
  if n < Matrix.wordCount then .ok n else .error .overflow

def divide (n divisor : Nat) : Except Halt Nat :=
  if divisor = 0 then .error .zero else .ok (n / divisor)

/-- The part of a buffer from one index up to another. -/
def slice (bytes : List UInt8) (start stop : Nat) : Except Halt (List UInt8) :=
  if start ≤ stop ∧ stop ≤ bytes.length then .ok ((bytes.drop start).take (stop - start))
  else .error .outside

/-- A buffer with the part from one index up to another overwritten. -/
def overwrite (bytes : List UInt8) (start stop : Nat) (part : List UInt8) :
    Except Halt (List UInt8) :=
  if start ≤ stop ∧ stop ≤ bytes.length then
    if part.length = stop - start then .ok (bytes.take start ++ part ++ bytes.drop stop)
    else .error .unequal
  else .error .outside

/-- The whole parts of a size that a buffer has; what is left over is no part. -/
def parts (size : Nat) (bytes : List UInt8) : Except Halt (List (List UInt8)) := do
  let count ← divide bytes.length size
  return Interleave.cut size count bytes

/-- Elements copied into strides, side by side, as far as there are both. -/
def copyEach (start stop : Nat) :
    List (List UInt8) → List (List UInt8) → Except Halt (List (List UInt8))
  | element :: elements, stride :: strides => do
    let written ← overwrite stride start stop element
    return written :: (← copyEach start stop elements strides)
  | _, strides => .ok strides

/-- The elements of a channel copied to a position of every stride of a buffer. -/
def copyChannel (size stride position : Nat) (channel packed : List UInt8) :
    Except Halt (List UInt8) := do
  let start ← word (position * size)
  let stop ← word (start + size)
  let elements ← parts size channel
  let strides ← parts stride packed
  let written ← copyEach start stop elements strides
  return written.flatten ++ packed.drop (stride * strides.length)

/-- Channels, given by their index and their position, copied into a buffer one after another. Each
must be there and have the expected size. -/
def copyAll (s : Source) (expected stride : Nat) :
    List (Nat × Nat) → List UInt8 → ExceptT MatrixError (Except Halt) (List UInt8)
  | [], packed => return packed
  | (index, position) :: rest, packed => do
    let view ← ExceptT.mk (.ok (s.channel index))
    if view.size = expected then
      let channel ← slice view.buffer.bytes view.offset (view.offset + view.size)
      copyAll s expected stride rest (← copyChannel s.elementType.size stride position channel packed)
    else throw (.layout (.channelBytes index view.size expected))

/-- The channels of a source interleaved in a buffer of zeros. -/
def interleave (s : Source) (order : ChannelOrder) :
    ExceptT MatrixError (Except Halt) (List UInt8) := do
  if s.channelCount = 0 then throw (.layout .noChannel)
  let total ← ExceptT.mk (.ok s.packedSize)
  let expected ← divide total s.channelCount
  let stride ← word (s.channelCount * s.elementType.size)
  copyAll s expected stride (order.channels s.channelCount).zipIdx (List.replicate total 0)

/-! ## Copying a channel -/

variable {size stride position rounds : Nat}

theorem word_of_lt {n : Nat} (h : n < Matrix.wordCount) : word n = .ok n := if_pos h

theorem divide_mul {divisor : Nat} (h : 0 < divisor) (n : Nat) :
    divide (divisor * n) divisor = .ok n := by
  rw [divide, if_neg (Nat.ne_of_gt h), Nat.mul_div_cancel_left _ h]

theorem parts_of_length {bytes : List UInt8} (hsize : 0 < size)
    (h : bytes.length = size * rounds) :
    parts size bytes = .ok (Interleave.cut size rounds bytes) := by
  rw [parts, h, divide_mul hsize]
  rfl

/-- A part between two others is overwritten by one of its size. -/
theorem overwrite_middle (front old back : List UInt8) {new : List UInt8}
    (h : new.length = old.length) :
    overwrite (front ++ old ++ back) front.length (front.length + old.length) new =
      .ok (front ++ new ++ back) := by
  have hinside : front.length ≤ front.length + old.length ∧
      front.length + old.length ≤ (front ++ old ++ back).length := by
    rw [List.length_append, List.length_append]
    omega
  have hsize : new.length = front.length + old.length - front.length := by omega
  have htake : (front ++ old ++ back).take front.length = front := by
    rw [List.append_assoc, List.take_left' rfl]
  have hdrop : (front ++ old ++ back).drop (front.length + old.length) = back :=
    List.drop_left' List.length_append
  rw [overwrite, if_pos hinside, if_pos hsize, htake, hdrop]

theorem slice_of_view (view : View) :
    slice view.buffer.bytes view.offset (view.offset + view.size) = .ok view.bytes := by
  have hinside : view.offset ≤ view.offset + view.size ∧
      view.offset + view.size ≤ view.buffer.bytes.length := ⟨Nat.le_add_right _ _, view.inside⟩
  rw [slice, if_pos hinside, Nat.add_sub_cancel_left, View.bytes]

section Channel

variable {done rest : List (List UInt8)} {old channel : List UInt8}

/-- A round of merged channels, with the element of one of them told apart. -/
theorem merge_middle (size rounds : Nat) (done : List (List UInt8)) (channel : List UInt8)
    (rest : List (List UInt8)) :
    Interleave.merge size (rounds + 1) (done ++ channel :: rest) =
      (done.map (·.take size)).flatten ++ channel.take size ++ (rest.map (·.take size)).flatten ++
        Interleave.merge size rounds
          (done.map (·.drop size) ++ channel.drop size :: rest.map (·.drop size)) := by
  rw [Interleave.merge, List.flatMap_def]
  simp only [List.map_append, List.map_cons, List.flatten_append, List.flatten_cons,
    List.append_assoc]

theorem length_merge_middle (hdone : ∀ c ∈ done, c.length = size * rounds)
    (hchannel : channel.length = size * rounds) (hrest : ∀ c ∈ rest, c.length = size * rounds) :
    (Interleave.merge size rounds (done ++ channel :: rest)).length =
      size * (done.length + (rest.length + 1)) * rounds := by
  rw [Interleave.length_merge, List.length_append, List.length_cons]
  intro c hc
  rcases List.mem_append.1 hc with hc | hc
  · exact hdone c hc
  · rcases List.mem_cons.1 hc with rfl | hc
    · exact hchannel
    · exact hrest c hc

/-- In every stride of merged channels the element of one channel is overwritten by that of
another one. -/
theorem copyEach_cut (hdone : ∀ c ∈ done, c.length = size * rounds)
    (hold : old.length = size * rounds) (hrest : ∀ c ∈ rest, c.length = size * rounds)
    (hchannel : channel.length = size * rounds)
    (hstride : stride = size * (done ++ old :: rest).length) :
    copyEach (size * done.length) (size * done.length + size)
        (Interleave.cut size rounds channel)
        (Interleave.cut stride rounds (Interleave.merge size rounds (done ++ old :: rest))) =
      .ok (Interleave.cut stride rounds
        (Interleave.merge size rounds (done ++ channel :: rest))) := by
  induction rounds generalizing done old rest channel with
  | zero => rfl
  | succ rounds ih =>
    obtain ⟨hdoneHeads, hdoneTails⟩ := Interleave.length_of_mem_round hdone
    obtain ⟨hrestHeads, hrestTails⟩ := Interleave.length_of_mem_round hrest
    obtain ⟨holdHead, holdTail⟩ := Interleave.length_round hold
    obtain ⟨hhead, htail⟩ := Interleave.length_round hchannel
    -- the first stride is made of the first elements, with the one to be overwritten between
    have hfront := Interleave.length_flatten hdoneHeads
    have hback := Interleave.length_flatten hrestHeads
    rw [List.length_map] at hfront hback
    have hfirst : ∀ {element : List UInt8}, element.length = size →
        ((done.map (·.take size)).flatten ++ element ++
          (rest.map (·.take size)).flatten).length = stride := by
      intro element helement
      rw [List.length_append, List.length_append, hfront, hback, helement, hstride,
        List.length_append, List.length_cons]
      ring
    have hwritten := overwrite_middle (done.map (·.take size)).flatten (old.take size)
      (rest.map (·.take size)).flatten (hhead.trans holdHead.symm)
    rw [hfront, holdHead] at hwritten
    have hothers := ih hdoneTails holdTail hrestTails htail
      (by rw [hstride]; simp only [List.length_append, List.length_cons, List.length_map])
    rw [List.length_map] at hothers
    rw [merge_middle, merge_middle, Interleave.cut, Interleave.cut, Interleave.cut,
      List.take_left' (hfirst holdHead), List.drop_left' (hfirst holdHead),
      List.take_left' (hfirst hhead), List.drop_left' (hfirst hhead), copyEach, hwritten]
    show (copyEach _ _ _ _ >>= fun written => .ok (_ :: written)) = _
    rw [hothers]
    rfl

/-- A channel is copied to its position among merged channels. -/
theorem copyChannel_merge (hsize : 0 < size) (hdone : ∀ c ∈ done, c.length = size * rounds)
    (hold : old.length = size * rounds) (hrest : ∀ c ∈ rest, c.length = size * rounds)
    (hchannel : channel.length = size * rounds)
    (hword : size * (done ++ old :: rest).length < Matrix.wordCount) :
    copyChannel size ((done ++ old :: rest).length * size) done.length channel
        (Interleave.merge size rounds (done ++ old :: rest)) =
      .ok (Interleave.merge size rounds (done ++ channel :: rest)) := by
  have hcount : (done ++ old :: rest).length = done.length + (rest.length + 1) := by
    rw [List.length_append, List.length_cons]
  have hbefore := length_merge_middle hdone hold hrest
  have hafter := length_merge_middle hdone hchannel hrest
  rw [← hcount] at hbefore hafter
  have hpos : 0 < size * (done ++ old :: rest).length := by
    rw [hcount]
    exact Nat.mul_pos hsize (by omega)
  -- the end of the position is inside the stride
  have hstop : size * done.length + size ≤ size * (done ++ old :: rest).length := by
    rw [← Nat.mul_succ, hcount]
    exact Nat.mul_le_mul_left size (by omega)
  have hcut := parts_of_length hpos hbefore
  have hcopied := copyEach_cut hdone hold hrest hchannel rfl
  have hflatten := Interleave.flatten_cut (size * (done ++ old :: rest).length) rounds
    (Interleave.merge size rounds (done ++ channel :: rest))
  have hnothing : (Interleave.merge size rounds (done ++ old :: rest)).drop
      (size * (done ++ old :: rest).length * rounds) = [] :=
    List.drop_eq_nil_of_le (Nat.le_of_eq hbefore)
  rw [List.take_of_length_le (Nat.le_of_eq hafter)] at hflatten
  rw [copyChannel, Nat.mul_comm done.length, Nat.mul_comm _ size, word_of_lt (by omega)]
  show (word (size * done.length + size) >>= fun stop => _) = _
  rw [word_of_lt (by omega)]
  show (parts size channel >>= fun elements => _) = _
  rw [parts_of_length hsize hchannel]
  show (parts _ _ >>= fun strides => _) = _
  rw [hcut]
  show (copyEach _ _ _ _ >>= fun written => _) = _
  rw [hcopied]
  show Except.ok _ = _
  rw [hflatten, Interleave.length_cut, hnothing, List.append_nil]

end Channel

end InPlace

/-- An element of every channel is far smaller than a word can count. -/
theorem Matrix.stride_lt (m : Matrix) :
    m.elementType.size * m.channels.length < Matrix.wordCount := by
  have hsize : m.elementType.size ≤ 8 := by cases m.elementType <;> decide
  have hcount : m.channels.length ≤ Matrix.maxChannels := m.fitting.channels_le
  exact Nat.lt_of_le_of_lt (Nat.mul_le_mul hsize hcount) (by decide)

namespace InPlace

/-! ## Copying all channels -/

theorem lift_bind {α β : Type} {x : Except Halt α} {a : α} (h : x = .ok a)
    (next : α → ExceptT MatrixError (Except Halt) β) : (liftM x >>= next) = next a := by
  subst h
  rfl

theorem mk_bind {α β : Type} {x : Except MatrixError α} {a : α} (h : x = .ok a)
    (next : α → ExceptT MatrixError (Except Halt) β) :
    (ExceptT.mk (.ok x) >>= next) = next a := by
  subst h
  rfl

theorem merge_zeros (size count rounds : Nat) :
    Interleave.merge size rounds (List.replicate count (List.replicate (size * rounds) 0)) =
      List.replicate (size * count * rounds) 0 := by
  induction rounds with
  | zero => rfl
  | succ rounds ih =>
    have hhead : (List.replicate (size * (rounds + 1)) (0 : UInt8)).take size =
        List.replicate size 0 := by
      rw [List.take_replicate, Nat.mul_succ, Nat.min_eq_left (Nat.le_add_left _ _)]
    have htail : (List.replicate (size * (rounds + 1)) (0 : UInt8)).drop size =
        List.replicate (size * rounds) 0 := by
      rw [List.drop_replicate, Nat.mul_succ, Nat.add_sub_cancel]
    rw [Interleave.merge, List.flatMap_def, List.map_replicate, List.map_replicate, hhead, htail,
      ih, List.flatten_replicate_replicate, List.replicate_append_replicate, Nat.mul_succ,
      Nat.mul_comm count, Nat.add_comm]

/-- The buffer is the merged form of the channels copied so far and of zeros for the others. -/
theorem copyAll_merge (m : Matrix) (done blank : List (List UInt8)) {indices : List Nat}
    (hindices : ∀ index ∈ indices, index < m.channels.length)
    (hdone : ∀ c ∈ done, c.length = m.elementType.size * Matrix.volume m.dimensions)
    (hblank : ∀ c ∈ blank, c.length = m.elementType.size * Matrix.volume m.dimensions)
    (hleft : blank.length = indices.length) (hcount : (done ++ blank).length = m.channels.length) :
    copyAll m.source (m.elementType.size * Matrix.volume m.dimensions)
        (m.channels.length * m.elementType.size) (indices.zipIdx done.length)
        (Interleave.merge m.elementType.size (Matrix.volume m.dimensions) (done ++ blank)) =
      pure (Interleave.merge m.elementType.size (Matrix.volume m.dimensions)
        (done ++ indices.map fun index => m.channelList.getD index [])) := by
  induction indices generalizing done blank with
  | nil =>
    obtain rfl : blank = [] := List.eq_nil_of_length_eq_zero hleft
    rfl
  | cons index indices ih =>
    obtain ⟨hindex, hothers⟩ := List.forall_mem_cons.1 hindices
    cases blank with
    | nil => cases hleft
    | cons old rest =>
      obtain ⟨hold, hrest⟩ := List.forall_mem_cons.1 hblank
      have hview := m.fitting.size m.channels[index] (List.getElem_mem hindex)
      have hchannel : m.channels[index].bytes.length =
          m.elementType.size * Matrix.volume m.dimensions := by
        rw [View.length_bytes, hview]
      have hget : m.channelList.getD index [] = m.channels[index].bytes := by
        simp [Matrix.channelList, hindex]
      have hcopied := copyChannel_merge m.elementType.size_pos hdone hold hrest hchannel
        (hcount ▸ m.stride_lt)
      have hmore : ∀ c ∈ done ++ [m.channels[index].bytes],
          c.length = m.elementType.size * Matrix.volume m.dimensions := by
        intro c hc
        rcases List.mem_append.1 hc with hc | hc
        · exact hdone c hc
        · rw [List.mem_singleton.1 hc, hchannel]
      have hnext := ih _ rest hothers hmore hrest (Nat.succ.inj hleft)
        (by rw [← hcount]; simp only [List.length_append, List.length_cons, List.length_nil]; omega)
      rw [List.length_append, List.length_singleton, List.append_assoc, List.append_assoc] at hnext
      rw [hcount] at hcopied
      have htype : m.source.elementType = m.elementType := rfl
      rw [List.zipIdx_cons, copyAll, mk_bind (m.channel_of_lt hindex), if_pos hview,
        lift_bind (slice_of_view _), htype, lift_bind hcopied, List.map_cons, hget]
      exact hnext

/-- The machine does not halt and makes what merging makes. -/
theorem run_interleave (m : Matrix) (order : ChannelOrder) :
    (interleave m.source order).run = .ok (m.source.interleave order) := by
  have hpos : 0 < m.source.channelCount := m.fitting.channels_pos
  cases htotal : m.source.packedSize with
  | error e =>
    unfold interleave Source.interleave
    rw [if_neg (Nat.ne_of_gt hpos), if_neg (Nat.ne_of_gt hpos), htotal]
    rfl
  | ok total =>
    obtain ⟨hsize, -⟩ := (m.packedSize_eq_ok_iff total).1 htotal
    have hdivide : divide total m.source.channelCount =
        .ok (m.elementType.size * Matrix.volume m.dimensions) := by
      rw [hsize, Nat.mul_comm m.elementType.size, Nat.mul_assoc]
      exact divide_mul hpos _
    have hstride : word (m.source.channelCount * m.source.elementType.size) =
        .ok (m.channels.length * m.elementType.size) :=
      word_of_lt (Nat.mul_comm _ m.elementType.size ▸ m.stride_lt)
    have hzeros := merge_zeros m.elementType.size m.channels.length (Matrix.volume m.dimensions)
    have hindices : ∀ index ∈ order.channels m.channels.length, index < m.channels.length :=
      fun _ => ChannelOrder.lt_of_mem_channels
    have hcopied := copyAll_merge m []
      (List.replicate m.channels.length
        (List.replicate (m.elementType.size * Matrix.volume m.dimensions) 0))
      hindices (by simp) (by simp)
      (by rw [List.length_replicate, ChannelOrder.length_channels]) (by simp)
    rw [List.nil_append, hzeros, ← hsize] at hcopied
    rw [Matrix.interleave_of_packedSize htotal]
    rw [interleave, if_neg (Nat.ne_of_gt hpos)]
    dsimp only
    rw [mk_bind htotal, lift_bind hdivide, lift_bind hstride, ChannelOrder.arrange,
      Matrix.channelList, List.length_map]
    exact congrArg ExceptT.run hcopied

end InPlace

namespace Matrix

/-! ## The layout -/

/-- The size that is looked for is the exact product, and too large exactly beyond the limit. -/
theorem packedSize_eq (m : Matrix) :
    m.source.packedSize =
      if m.channels.length * volume m.dimensions * m.elementType.size ≤ maxPackedBytes then
        .ok (m.channels.length * volume m.dimensions * m.elementType.size)
      else .error (.capacity m.channels.length (volume m.dimensions) m.elementType.size) := by
  have helements : m.source.elementCount? = some (volume m.dimensions) := m.fitting.volume
  have hfull : m.source.fullSize =
      m.channels.length * volume m.dimensions * m.elementType.size := by
    rw [Source.fullSize, Nat.mul_assoc, Nat.mul_comm]
    rfl
  have htooLarge : m.source.tooLarge =
      .capacity m.channels.length (volume m.dimensions) m.elementType.size := by
    rw [Source.tooLarge, helements]
    rfl
  rw [Source.packedSize_of_elementCount? helements, hfull, htooLarge]

theorem interleave_eq_capacity_iff (m : Matrix) (order : ChannelOrder) :
    m.source.interleave order =
        .error (.capacity m.channels.length (volume m.dimensions) m.elementType.size) ↔
      maxPackedBytes < m.channels.length * volume m.dimensions * m.elementType.size := by
  have hpos : m.source.channelCount ≠ 0 := Nat.ne_of_gt m.fitting.channels_pos
  have hsize := m.packedSize_eq
  constructor
  · intro herror
    by_contra hmax
    rw [if_pos (by omega)] at hsize
    rw [interleave_of_packedSize hsize] at herror
    cases herror
  · intro hlarge
    rw [if_neg (by omega)] at hsize
    rw [Source.interleave, if_neg hpos, hsize]
    rfl

theorem exists_byte (m : Matrix) (order : ChannelOrder) {element position byte : Nat}
    (helement : element < volume m.dimensions) (hposition : position < m.channels.length)
    (hbyte : byte < m.elementType.size) :
    ∃ index view value, (order.channels m.channels.length)[position]? = some index ∧
      m.channels[index]? = some view ∧
      view.bytes[element * m.elementType.size + byte]? = some value ∧
      (Interleave.merge m.elementType.size (volume m.dimensions) (order.arrange m.channelList))[
        (element * m.channels.length + position) * m.elementType.size + byte]? = some value := by
  have hindex := order.channelAt_lt hposition
  have hview : m.channels[order.channelAt m.channels.length position]? =
      some m.channels[order.channelAt m.channels.length position] := List.getElem?_eq_getElem hindex
  have hlength := m.fitting.size _ (List.getElem_mem hindex)
  have hinside : element * m.elementType.size + byte <
      m.channels[order.channelAt m.channels.length position].bytes.length := by
    have hnext : (element + 1) * m.elementType.size ≤ volume m.dimensions * m.elementType.size :=
      Nat.mul_le_mul_right _ helement
    rw [Nat.succ_mul] at hnext
    rw [View.length_bytes, hlength, Nat.mul_comm m.elementType.size]
    omega
  have harranged : (order.arrange m.channelList)[position]? =
      some m.channels[order.channelAt m.channels.length position].bytes := by
    rw [ChannelOrder.arrange, channelList, List.length_map, List.getElem?_map,
      order.getElem?_channels hposition, Option.map_some, List.getD_eq_getElem?_getD,
      List.getElem?_map, hview]
    rfl
  have hmerged := Interleave.getElem?_merge (m.length_of_mem_arrange order) helement harranged hbyte
  rw [ChannelOrder.length_arrange, channelList, List.length_map] at hmerged
  rw [channelList, hmerged]
  have hvalue := List.getElem?_eq_getElem hinside
  exact ⟨_, _, _, order.getElem?_channels hposition, hview, hvalue, hvalue⟩

/-- Interleaving the channels of a matrix. They are refused exactly if they have more bytes than a
packed buffer may hold. Otherwise every byte of every element has its place: elements follow one
another, and inside an element the channels stand in the channel order, which moves every channel to
one position and is its own inverse. The machine that copies them into one buffer never halts. -/
theorem interleave_layout (m : Matrix) (order : ChannelOrder) :
    m.source.elementCount? = some (volume m.dimensions) ∧
    (m.source.interleave order =
        .error (.capacity m.channels.length (volume m.dimensions) m.elementType.size) ↔
      maxPackedBytes < m.channels.length * volume m.dimensions * m.elementType.size) ∧
    (m.channels.length * volume m.dimensions * m.elementType.size ≤ maxPackedBytes →
      ∃ bytes, m.source.interleave order = .ok bytes ∧
        bytes.length = m.channels.length * volume m.dimensions * m.elementType.size ∧
        ∀ element < volume m.dimensions, ∀ position < m.channels.length,
          ∀ byte < m.elementType.size, ∃ index view value,
            (order.channels m.channels.length)[position]? = some index ∧
            m.channels[index]? = some view ∧
            view.bytes[element * m.elementType.size + byte]? = some value ∧
            bytes[(element * m.channels.length + position) * m.elementType.size + byte]? =
              some value) ∧
    ((order.channels m.channels.length).Perm (List.range m.channels.length) ∧
      ∀ position < m.channels.length, ∃ index,
        (order.channels m.channels.length)[position]? = some index ∧
        (order.channels m.channels.length)[index]? = some position) ∧
    (InPlace.interleave m.source order).run = .ok (m.source.interleave order) := by
  have hinverse : ∀ position < m.channels.length, ∃ index,
      (order.channels m.channels.length)[position]? = some index ∧
      (order.channels m.channels.length)[index]? = some position := by
    intro position hposition
    have hback := order.getElem?_channels (order.channelAt_lt hposition)
    rw [order.channelAt_channelAt] at hback
    exact ⟨_, order.getElem?_channels hposition, hback⟩
  refine ⟨m.fitting.volume, m.interleave_eq_capacity_iff order, ?_,
    ⟨order.channels_perm _, hinverse⟩, InPlace.run_interleave m order⟩
  intro hmax
  have hsize := m.packedSize_eq
  rw [if_pos hmax] at hsize
  refine ⟨_, interleave_of_packedSize hsize, ?_, ?_⟩
  · rw [Interleave.length_merge (m.length_of_mem_arrange order), ChannelOrder.length_arrange,
      channelList, List.length_map, Nat.mul_assoc, Nat.mul_comm]
  · intro element helement position hposition byte hbyte
    exact m.exists_byte order helement hposition hbyte

end Matrix

end ExecutorHost
