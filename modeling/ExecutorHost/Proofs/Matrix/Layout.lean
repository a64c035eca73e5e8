import Mathlib.Algebra.BigOperators.Group.List.Basic
import ExecutorHost.Matrix.Packed

/-!
# Sizes of matrices and packed buffers

A product of dimensions that fits a machine word at every step is the product of the dimensions. A
smaller start makes it fit all the more, so the size of a packed buffer bounds the sizes of its
channels. What makes a matrix or a packed buffer fit together is said here without the order in
which it is found out.
-/

namespace ExecutorHost

/-! ## Products of dimensions -/

namespace Matrix

variable {start bound n : Nat} {d : UInt64} {dimensions : List UInt64}

/-- The product of the dimensions, however large. -/
def volume (dimensions : List UInt64) : Nat := (dimensions.map UInt64.toNat).prod

theorem volume_cons (d : UInt64) (dimensions : List UInt64) :
    volume (d :: dimensions) = d.toNat * volume dimensions := by
  rw [volume, List.map_cons, List.prod_cons, volume]

theorem word?_eq_some_iff {m : Nat} : word? n = some m ↔ n < wordCount ∧ n = m := by
  unfold word?
  split_ifs with h
  · simp [h]
  · simp [h]

theorem bind_word?_eq_some_iff (a b n : Nat) :
    ((word? a).bind fun k => word? (k * b)) = some n ↔
      a < wordCount ∧ a * b < wordCount ∧ a * b = n := by
  simp [Option.bind_eq_some_iff, word?_eq_some_iff]

theorem product?_cons (start : Nat) (d : UInt64) (dimensions : List UInt64) (n : Nat) :
    product? start (d :: dimensions) = some n ↔
      start * d.toNat < wordCount ∧ product? (start * d.toNat) dimensions = some n := by
  rw [product?, Option.bind_eq_some_iff]
  constructor
  · rintro ⟨m, hword, hrest⟩
    obtain ⟨hlt, rfl⟩ := word?_eq_some_iff.1 hword
    exact ⟨hlt, hrest⟩
  · rintro ⟨hlt, hrest⟩
    exact ⟨start * d.toNat, word?_eq_some_iff.2 ⟨hlt, rfl⟩, hrest⟩

theorem eq_of_product? (h : product? start dimensions = some n) :
    n = start * volume dimensions := by
  induction dimensions generalizing start with
  | nil =>
    cases h
    exact (Nat.mul_one n).symm
  | cons d rest ih =>
    have hrest := ih ((product?_cons start d rest n).1 h).2
    rw [hrest, volume_cons, Nat.mul_assoc]

/-- The last product on the way is the whole one. -/
theorem lt_of_product? (h : product? start dimensions = some n) (hstart : start < wordCount) :
    n < wordCount := by
  induction dimensions generalizing start with
  | nil =>
    cases h
    exact hstart
  | cons d rest ih =>
    obtain ⟨hlt, hrest⟩ := (product?_cons start d rest n).1 h
    exact ih hrest hlt

/-- With a smaller start, every product on the way is smaller. -/
theorem product?_of_le (hle : start ≤ bound) (h : product? bound dimensions = some n) :
    product? start dimensions = some (start * volume dimensions) := by
  induction dimensions generalizing start bound with
  | nil => exact congrArg some (Nat.mul_one start).symm
  | cons d rest ih =>
    obtain ⟨hlt, hrest⟩ := (product?_cons bound d rest n).1 h
    have hstep : start * d.toNat ≤ bound * d.toNat := Nat.mul_le_mul_right _ hle
    have hfits := ih hstep hrest
    rw [Nat.mul_assoc] at hfits
    exact (product?_cons start d rest _).2 ⟨Nat.lt_of_le_of_lt hstep hlt, hfits⟩

/-! ## What fits together -/

theorem firstOfOtherSize?_eq_none_iff (expected index : Nat) (sizes : List Nat) :
    firstOfOtherSize? expected index sizes = none ↔ ∀ size ∈ sizes, size = expected := by
  induction sizes generalizing index with
  | nil => simp [firstOfOtherSize?]
  | cons size sizes ih =>
    rw [firstOfOtherSize?, List.forall_mem_cons]
    by_cases h : size = expected
    · rw [if_pos h, ih]
      exact ⟨fun hrest => ⟨h, hrest⟩, fun hall => hall.2⟩
    · rw [if_neg h]
      constructor
      · intro hnone
        cases hnone
      · intro hall
        exact absurd hall.1 h

theorem channelBytes?_eq_some_iff (elementType : ElementType) (dimensions : List UInt64) :
    channelBytes? elementType dimensions = some n ↔
      product? 1 dimensions = some (volume dimensions) ∧
        volume dimensions * elementType.size < wordCount ∧
        volume dimensions * elementType.size = n := by
  unfold channelBytes? elementCount?
  rw [Option.bind_eq_some_iff]
  constructor
  · rintro ⟨elements, hproduct, hword⟩
    have hvolume := eq_of_product? hproduct
    rw [Nat.one_mul] at hvolume
    subst hvolume
    obtain ⟨hlt, heq⟩ := word?_eq_some_iff.1 hword
    exact ⟨hproduct, hlt, heq⟩
  · rintro ⟨hproduct, hlt, heq⟩
    exact ⟨_, hproduct, word?_eq_some_iff.2 ⟨hlt, heq⟩⟩

/-- A matrix fits together if it has a dimension, an allowed number of channels, and the bytes that
the dimensions ask for in every channel. -/
theorem fault?_eq_none_iff (elementType : ElementType) (dimensions : List UInt64)
    (sizes : List Nat) :
    fault? elementType dimensions sizes = none ↔
      dimensions ≠ [] ∧ (sizes ≠ [] ∧ sizes.length ≤ maxChannels) ∧
        product? 1 dimensions = some (volume dimensions) ∧
        volume dimensions * elementType.size < wordCount ∧
        ∀ size ∈ sizes, size = volume dimensions * elementType.size := by
  unfold fault?
  by_cases hdimensions : dimensions = []
  · simp [hdimensions]
  by_cases hcount : sizes.isEmpty || decide (maxChannels < sizes.length)
  · rw [if_neg (by simpa using hdimensions), if_pos hcount]
    constructor
    · intro hnone
      cases hnone
    · rintro ⟨-, ⟨hsome, hfew⟩, -⟩
      rw [Bool.or_eq_true, List.isEmpty_iff, decide_eq_true_iff] at hcount
      rcases hcount with hempty | hmany
      · exact absurd hempty hsome
      · omega
  · have hallowed : sizes ≠ [] ∧ sizes.length ≤ maxChannels := by
      simpa using hcount
    rw [if_neg (by simpa using hdimensions), if_neg hcount]
    cases hbytes : channelBytes? elementType dimensions with
    | none =>
      constructor
      · intro hnone
        cases hnone
      · rintro ⟨-, -, hproduct, hlt, -⟩
        have hsome := (channelBytes?_eq_some_iff elementType dimensions).2 ⟨hproduct, hlt, rfl⟩
        rw [hbytes] at hsome
        cases hsome
    | some expected =>
      obtain ⟨hproduct, hlt, rfl⟩ := (channelBytes?_eq_some_iff elementType dimensions).1 hbytes
      simp only [Option.map_eq_none_iff, firstOfOtherSize?_eq_none_iff]
      exact ⟨fun hsizes => ⟨hdimensions, hallowed, hproduct, hlt, hsizes⟩,
        fun hall => hall.2.2.2.2⟩

theorem make_eq_ok {elementType : ElementType} {dimensions : List UInt64} {channels : List View}
    (h : fault? elementType dimensions (channels.map (·.size)) = none) :
    make elementType dimensions channels = .ok ⟨elementType, dimensions, channels, h⟩ := by
  unfold make
  split
  · rename_i heq
    rw [h] at heq
    cases heq
  · rfl

theorem toNat_toUInt64 {count : Nat} (h : count ≤ maxChannels) : count.toUInt64.toNat = count := by
  apply UInt64.toNat_ofNat_of_lt
  exact Nat.lt_of_le_of_lt h (by decide)

/-- How the dimensions and the channels of a matrix belong together. -/
structure Fitting (m : Matrix) : Prop where
  dimensions : m.dimensions ≠ []
  channels_pos : 0 < m.channels.length
  channels_le : m.channels.length ≤ maxChannels
  volume : product? 1 m.dimensions = some (Matrix.volume m.dimensions)
  size : ∀ view ∈ m.channels, view.size = m.elementType.size * Matrix.volume m.dimensions

theorem fitting (m : Matrix) : m.Fitting := by
  obtain ⟨hdimensions, ⟨hsome, hfew⟩, hvolume, -, hsizes⟩ := (fault?_eq_none_iff _ _ _).1 m.sound
  rw [List.length_map] at hfew
  rw [List.forall_mem_map] at hsizes
  refine ⟨hdimensions, ?_, hfew, hvolume, ?_⟩
  · apply List.length_pos_of_ne_nil
    intro hempty
    exact hsome (List.map_eq_nil_iff.2 hempty)
  · intro view hmem
    rw [hsizes view hmem, Nat.mul_comm]

end Matrix

namespace PackedBuffer

/-- A packed buffer fits together if it has at least two dimensions, of which the first is an
allowed number of channels, and as many bytes as their product. -/
theorem fault?_eq_none_iff (elementType : ElementType) (count : UInt64) (rest : List UInt64)
    (size : Nat) :
    fault? elementType (count :: rest) size = none ↔
      rest ≠ [] ∧ (count ≠ 0 ∧ count.toNat ≤ Matrix.maxChannels) ∧
        Matrix.product? elementType.size (count :: rest) = some size := by
  cases rest with
  | nil => simp [fault?]
  | cons d rest =>
    show (if decide (count = 0) || decide (Matrix.maxChannels < count.toNat) then
        some (LayoutFault.channelCount count.toNat)
      else if Matrix.product? elementType.size (count :: d :: rest) = some size then none
      else some _) = none ↔ _
    by_cases hcount : decide (count = 0) || decide (Matrix.maxChannels < count.toNat)
    · rw [if_pos hcount]
      constructor
      · intro hnone
        cases hnone
      · rintro ⟨-, ⟨hsome, hfew⟩, -⟩
        rw [Bool.or_eq_true, decide_eq_true_iff, decide_eq_true_iff] at hcount
        rcases hcount with hzero | hmany
        · exact absurd hzero hsome
        · omega
    · have hallowed : count ≠ 0 ∧ count.toNat ≤ Matrix.maxChannels := by
        simpa using hcount
      rw [if_neg hcount]
      split_ifs with hproduct
      · exact ⟨fun _ => ⟨List.cons_ne_nil _ _, hallowed, hproduct⟩, fun _ => rfl⟩
      · constructor
        · intro hnone
          cases hnone
        · intro hall
          exact absurd hall.2.2 hproduct

theorem ofView_eq_ok {elementType : ElementType} {dimensions : List UInt64} {view : View}
    (h : fault? elementType dimensions view.toBuffer.size = none) :
    ofView elementType dimensions view = .ok ⟨elementType, dimensions, view.toBuffer, h⟩ := by
  unfold ofView
  split
  · rename_i heq
    rw [h] at heq
    cases heq
  · rfl

/-- What a packed buffer of a view is. -/
theorem of_ofView_eq_ok {elementType : ElementType} {dimensions : List UInt64} {view : View}
    {p : PackedBuffer} (h : ofView elementType dimensions view = .ok p) :
    p.elementType = elementType ∧ p.dimensions = dimensions ∧ p.buffer.bytes = view.bytes := by
  unfold ofView at h
  split at h
  · cases h
  · cases h
    exact ⟨rfl, rfl, view.bytes_toBuffer⟩

/-- How the dimensions and the bytes of a packed buffer belong together. -/
structure Fitting (p : PackedBuffer) : Prop where
  dimensions : p.dimensions = p.channelCount.toUInt64 :: p.dimensions.tail
  dimensions_tail : p.dimensions.tail ≠ []
  channelCount_pos : 0 < p.channelCount
  channelCount_le : p.channelCount ≤ Matrix.maxChannels
  product : Matrix.product? p.elementType.size p.dimensions = some p.buffer.size
  volume : Matrix.product? 1 p.dimensions.tail = some (Matrix.volume p.dimensions.tail)
  size : p.buffer.size = p.elementType.size * p.channelCount * Matrix.volume p.dimensions.tail
  size_lt : p.buffer.size < Matrix.wordCount

theorem fitting (p : PackedBuffer) : p.Fitting := by
  obtain ⟨elementType, dimensions, buffer, hsound⟩ := p
  cases dimensions with
  | nil => cases hsound
  | cons count rest =>
    obtain ⟨hrest, ⟨hcount, hfew⟩, hproduct⟩ :=
      (fault?_eq_none_iff elementType count rest buffer.size).1 hsound
    have hpos : 0 < count.toNat := by
      apply Nat.pos_of_ne_zero
      intro hzero
      exact hcount (UInt64.toNat_inj.1 hzero)
    have hstride := ((Matrix.product?_cons _ count rest _).1 hproduct).2
    have hsome : 1 ≤ elementType.size * count.toNat := Nat.mul_pos elementType.size_pos hpos
    have hvolume := Matrix.product?_of_le hsome hstride
    rw [Nat.one_mul] at hvolume
    have hsmall : elementType.size < Matrix.wordCount := by
      cases elementType <;> decide
    exact {
      dimensions := congrArg (· :: rest) UInt64.ofNat_toNat.symm
      dimensions_tail := hrest
      channelCount_pos := hpos
      channelCount_le := hfew
      product := hproduct
      volume := hvolume
      size := Matrix.eq_of_product? hstride
      size_lt := Matrix.lt_of_product? hproduct hsmall }

/-- Channels of the right number and size make a matrix of the dimensions of a channel. -/
theorem Fitting.exists_make {p : PackedBuffer} (h : p.Fitting) (channels : List View)
    (hcount : channels.length = p.channelCount)
    (hsizes : ∀ view ∈ channels,
      view.size = p.elementType.size * Matrix.volume p.dimensions.tail) :
    ∃ m, Matrix.make p.elementType p.dimensions.tail channels = .ok m ∧
      m.elementType = p.elementType ∧ m.dimensions = p.dimensions.tail ∧ m.channels = channels := by
  have hone : p.elementType.size * Matrix.volume p.dimensions.tail ≤ p.buffer.size := by
    rw [h.size, Nat.mul_assoc]
    exact Nat.mul_le_mul_left _ (Nat.le_mul_of_pos_left _ h.channelCount_pos)
  have hfault : Matrix.fault? p.elementType p.dimensions.tail (channels.map (·.size)) = none := by
    rw [Matrix.fault?_eq_none_iff, List.length_map, hcount, Nat.mul_comm (Matrix.volume _),
      List.forall_mem_map]
    refine ⟨h.dimensions_tail, ⟨?_, h.channelCount_le⟩, h.volume,
      Nat.lt_of_le_of_lt hone h.size_lt, hsizes⟩
    intro hempty
    rw [List.map_eq_nil_iff.1 hempty] at hcount
    exact absurd hcount (Nat.ne_of_lt h.channelCount_pos)
  exact ⟨_, Matrix.make_eq_ok hfault, rfl, rfl, rfl⟩

end PackedBuffer

end ExecutorHost
