import Mathlib.Data.List.Basic
import Mathlib.Data.List.Nodup
import Mathlib.Tactic.Ring
import ExecutorHost.Matrix.Basic
import ExecutorHost.Matrix.Interleave

/-!
# Interleaving and taking apart

Merging channels of one length and taking a run of bytes apart are inverse to each other, round by
round: what one round merges is cut into the elements it was merged from. So the position of every
byte is known. A channel order only moves channels, and moving them twice in one order brings them
back.
-/

namespace ExecutorHost

namespace Interleave

variable {size count rounds : Nat} {bytes : List UInt8} {channels : List (List UInt8)}

/-! ## One round -/

theorem length_cut (size count : Nat) (bytes : List UInt8) :
    (cut size count bytes).length = count := by
  induction count generalizing bytes with
  | zero => rfl
  | succ count ih => rw [cut, List.length_cons, ih]

theorem length_of_mem_cut (h : size * count ≤ bytes.length) :
    ∀ element ∈ cut size count bytes, element.length = size := by
  induction count generalizing bytes with
  | zero => simp [cut]
  | succ count ih =>
    rw [Nat.mul_succ] at h
    rw [cut, List.forall_mem_cons]
    constructor
    · rw [List.length_take]
      omega
    · apply ih
      rw [List.length_drop]
      omega

theorem flatten_cut (size count : Nat) (bytes : List UInt8) :
    (cut size count bytes).flatten = bytes.take (size * count) := by
  induction count generalizing bytes with
  | zero => simp [cut]
  | succ count ih =>
    rw [cut, List.flatten_cons, ih, Nat.mul_succ, Nat.add_comm, List.take_add]

/-- A run that has been put together from elements is cut into these. -/
theorem cut_flatten {elements : List (List UInt8)} (h : ∀ element ∈ elements, element.length = size)
    (rest : List UInt8) : cut size elements.length (elements.flatten ++ rest) = elements := by
  induction elements with
  | nil => rfl
  | cons element elements ih =>
    obtain ⟨hfirst, hothers⟩ := List.forall_mem_cons.1 h
    rw [List.length_cons, cut, List.flatten_cons, List.append_assoc, List.take_left' hfirst,
      List.drop_left' hfirst, ih hothers]

theorem length_flatten {elements : List (List UInt8)}
    (h : ∀ element ∈ elements, element.length = size) :
    elements.flatten.length = size * elements.length := by
  induction elements with
  | nil => rfl
  | cons element elements ih =>
    obtain ⟨hfirst, hothers⟩ := List.forall_mem_cons.1 h
    rw [List.flatten_cons, List.length_append, ih hothers, hfirst, List.length_cons, Nat.mul_succ]
    omega

theorem length_round (h : bytes.length = size * (rounds + 1)) :
    (bytes.take size).length = size ∧ (bytes.drop size).length = size * rounds := by
  rw [Nat.mul_succ] at h
  rw [List.length_take, List.length_drop]
  omega

/-- A round takes one element from every channel and leaves channels for one round less. -/
theorem length_of_mem_round (h : ∀ channel ∈ channels, channel.length = size * (rounds + 1)) :
    (∀ element ∈ channels.map (·.take size), element.length = size) ∧
      ∀ channel ∈ channels.map (·.drop size), channel.length = size * rounds := by
  rw [List.forall_mem_map, List.forall_mem_map]
  constructor
  · intro channel hmem
    exact (length_round (h channel hmem)).1
  · intro channel hmem
    exact (length_round (h channel hmem)).2

/-! ## All rounds -/

theorem length_split (size count rounds : Nat) (bytes : List UInt8) :
    (split size count rounds bytes).length = count := by
  induction rounds generalizing bytes with
  | zero => exact List.length_replicate
  | succ rounds ih =>
    rw [split, List.length_zipWith, length_cut, ih, Nat.min_self]

/-- What has been merged is taken apart into the channels it was merged from. -/
theorem split_merge (h : ∀ channel ∈ channels, channel.length = size * rounds) :
    split size channels.length rounds (merge size rounds channels) = channels := by
  induction rounds generalizing channels with
  | zero =>
    have hempty : ∀ channel ∈ channels, channel = [] := by
      intro channel hmem
      exact List.eq_nil_of_length_eq_zero (h channel hmem)
    exact (List.eq_replicate_iff.2 ⟨rfl, hempty⟩).symm
  | succ rounds ih =>
    obtain ⟨hheads, htails⟩ := length_of_mem_round h
    have hlength := length_flatten hheads
    have hcut := cut_flatten hheads (merge size rounds (channels.map (·.drop size)))
    have hrest := ih htails
    rw [List.length_map] at hlength hcut hrest
    rw [split, merge, List.flatMap_def, hcut, List.drop_left' hlength, hrest, List.zipWith_map,
      List.zipWith_self]
    simp only [List.take_append_drop, List.map_id']

theorem length_merge (h : ∀ channel ∈ channels, channel.length = size * rounds) :
    (merge size rounds channels).length = size * channels.length * rounds := by
  induction rounds generalizing channels with
  | zero => rfl
  | succ rounds ih =>
    obtain ⟨hheads, htails⟩ := length_of_mem_round h
    have hlength := length_flatten hheads
    have hrest := ih htails
    rw [List.length_map] at hlength hrest
    rw [merge, List.flatMap_def, List.length_append, hlength, hrest, Nat.mul_succ, Nat.add_comm]

/-- Byte `j` of element `i` stands where `i` whole elements have been put before. -/
theorem getElem?_flatten {elements : List (List UInt8)}
    (h : ∀ element ∈ elements, element.length = size) {i j : Nat} {element : List UInt8}
    (helement : elements[i]? = some element) (hj : j < size) :
    elements.flatten[i * size + j]? = element[j]? := by
  induction elements generalizing i with
  | nil => simp at helement
  | cons first elements ih =>
    obtain ⟨hfirst, hothers⟩ := List.forall_mem_cons.1 h
    rw [List.flatten_cons]
    cases i with
    | zero =>
      obtain rfl : first = element := by simpa using helement
      rw [Nat.zero_mul, Nat.zero_add, List.getElem?_append_left (by omega)]
    | succ i =>
      have hindex : (i + 1) * size + j = first.length + (i * size + j) := by
        rw [hfirst, Nat.succ_mul]
        omega
      rw [hindex, List.getElem?_append_right (Nat.le_add_right _ _), Nat.add_sub_cancel_left]
      exact ih hothers (by simpa using helement)

/-- Where a byte stands in merged channels: its element comes behind those of earlier rounds and of
earlier channels in the same round. -/
theorem getElem?_merge (h : ∀ channel ∈ channels, channel.length = size * rounds)
    {round position byte : Nat} {channel : List UInt8} (hround : round < rounds)
    (hchannel : channels[position]? = some channel) (hbyte : byte < size) :
    (merge size rounds channels)[(round * channels.length + position) * size + byte]? =
      channel[round * size + byte]? := by
  induction rounds generalizing channels round channel with
  | zero => omega
  | succ rounds ih =>
    obtain ⟨hheads, htails⟩ := length_of_mem_round h
    have hlength := length_flatten hheads
    rw [List.length_map] at hlength
    rw [merge, List.flatMap_def]
    cases round with
    | zero =>
      have hposition : position < channels.length := (List.getElem?_eq_some_iff.1 hchannel).1
      have hinside : position * size + byte < (channels.map (·.take size)).flatten.length := by
        have hnext : (position + 1) * size ≤ channels.length * size :=
          Nat.mul_le_mul_right size hposition
        rw [Nat.succ_mul] at hnext
        rw [hlength, Nat.mul_comm size]
        omega
      have hhead : (channels.map (·.take size))[position]? = some (channel.take size) := by
        rw [List.getElem?_map, hchannel, Option.map_some]
      rw [Nat.zero_mul, Nat.zero_add, List.getElem?_append_left hinside,
        getElem?_flatten hheads hhead hbyte, List.getElem?_take_of_lt hbyte, Nat.zero_mul,
        Nat.zero_add]
    | succ round =>
      have htail : (channels.map (·.drop size))[position]? = some (channel.drop size) := by
        rw [List.getElem?_map, hchannel, Option.map_some]
      have hindex : ((round + 1) * channels.length + position) * size + byte =
          (channels.map (·.take size)).flatten.length +
            ((round * channels.length + position) * size + byte) := by
        rw [hlength]
        ring
      have hbehind : size + (round * size + byte) = (round + 1) * size + byte := by ring
      have hrest := ih htails (Nat.lt_of_succ_lt_succ hround) htail
      rw [List.length_map, List.getElem?_drop, hbehind] at hrest
      rw [hindex, List.getElem?_append_right (Nat.le_add_right _ _), Nat.add_sub_cancel_left, hrest]

theorem merge_singleton {channel : List UInt8} (h : channel.length = size * rounds) :
    merge size rounds [channel] = channel := by
  induction rounds generalizing channel with
  | zero => exact (List.eq_nil_of_length_eq_zero h).symm
  | succ rounds ih =>
    obtain ⟨-, hrest⟩ := length_round h
    rw [merge, List.flatMap_singleton, List.map_singleton, ih hrest, List.take_append_drop]

theorem length_of_mem_split (h : bytes.length = size * count * rounds) :
    ∀ channel ∈ split size count rounds bytes, channel.length = size * rounds := by
  induction rounds generalizing bytes with
  | zero =>
    intro channel hmem
    rw [split] at hmem
    rw [List.eq_of_mem_replicate hmem]
    rfl
  | succ rounds ih =>
    rw [Nat.mul_succ] at h
    have hlater : (bytes.drop (size * count)).length = size * count * rounds := by
      rw [List.length_drop]
      omega
    have hrest := ih hlater
    have hcut : ∀ element ∈ cut size count bytes, element.length = size :=
      length_of_mem_cut (by omega)
    intro channel hmem
    obtain ⟨i, hi, rfl⟩ := List.mem_iff_getElem.1 hmem
    rw [split] at hi
    simp only [split, List.getElem_zipWith, List.length_append]
    rw [hcut _ (List.getElem_mem _), hrest _ (List.getElem_mem _), Nat.mul_succ, Nat.add_comm]

/-- Elements put in front of channels are found there again. -/
theorem map_zipWith_append {elements : List (List UInt8)}
    (hlength : elements.length = channels.length)
    (h : ∀ element ∈ elements, element.length = size) :
    (List.zipWith (· ++ ·) elements channels).map (·.take size) = elements ∧
      (List.zipWith (· ++ ·) elements channels).map (·.drop size) = channels := by
  induction elements generalizing channels with
  | nil =>
    cases channels with
    | nil => exact ⟨rfl, rfl⟩
    | cons channel channels => cases hlength
  | cons element elements ih =>
    cases channels with
    | nil => cases hlength
    | cons channel channels =>
      obtain ⟨hfirst, hothers⟩ := List.forall_mem_cons.1 h
      obtain ⟨htakes, hdrops⟩ := ih (Nat.succ.inj hlength) hothers
      rw [List.zipWith_cons_cons, List.map_cons, List.map_cons, htakes, hdrops,
        List.take_left' hfirst, List.drop_left' hfirst]
      exact ⟨rfl, rfl⟩

/-- What has been taken apart is merged into the run of bytes it comes from. -/
theorem merge_split (h : bytes.length = size * count * rounds) :
    merge size rounds (split size count rounds bytes) = bytes := by
  induction rounds generalizing bytes with
  | zero => exact (List.eq_nil_of_length_eq_zero h).symm
  | succ rounds ih =>
    rw [Nat.mul_succ] at h
    have hrest : (bytes.drop (size * count)).length = size * count * rounds := by
      rw [List.length_drop]
      omega
    have hcut : ∀ element ∈ cut size count bytes, element.length = size :=
      length_of_mem_cut (by omega)
    have hlength : (cut size count bytes).length =
        (split size count rounds (bytes.drop (size * count))).length := by
      rw [length_cut, length_split]
    obtain ⟨htakes, hdrops⟩ := map_zipWith_append hlength hcut
    rw [split, merge, List.flatMap_def, htakes, hdrops, flatten_cut, ih hrest,
      List.take_append_drop]

end Interleave

/-! ## Channel orders -/

namespace ChannelOrder

theorem channelAt_lt (order : ChannelOrder) {count position : Nat} (h : position < count) :
    order.channelAt count position < count := by
  cases order with
  | natural => exact h
  | standard =>
    show (if count < 3 then position else if position = 0 then 2 else if position = 2 then 0
      else position) < count
    split_ifs <;> omega

/-- The channel at a position stands, as a position, for that position. -/
theorem channelAt_channelAt (order : ChannelOrder) (count position : Nat) :
    order.channelAt count (order.channelAt count position) = position := by
  cases order with
  | natural => rfl
  | standard =>
    have hswap : ∀ position, ChannelOrder.standard.channelAt count position =
        if count < 3 then position else if position = 0 then 2 else if position = 2 then 0
        else position := fun _ => rfl
    by_cases hfew : count < 3
    · simp only [hswap, if_pos hfew]
    · by_cases hfirst : position = 0
      · simp [hswap, hfew, hfirst]
      · by_cases hthird : position = 2
        · simp [hswap, hfew, hthird]
        · simp only [hswap, if_neg hfew, if_neg hfirst, if_neg hthird]

theorem length_channels (order : ChannelOrder) (count : Nat) :
    (order.channels count).length = count := by
  rw [channels, List.length_map, List.length_range]

theorem getElem?_channels (order : ChannelOrder) {count position : Nat} (h : position < count) :
    (order.channels count)[position]? = some (order.channelAt count position) := by
  rw [channels, List.getElem?_map, List.getElem?_range h, Option.map_some]

theorem lt_of_mem_channels {order : ChannelOrder} {count index : Nat}
    (h : index ∈ order.channels count) : index < count := by
  obtain ⟨position, hposition, rfl⟩ := List.mem_map.1 h
  exact order.channelAt_lt (List.mem_range.1 hposition)

/-- No channel stands at two positions. -/
theorem channels_perm (order : ChannelOrder) (count : Nat) :
    (order.channels count).Perm (List.range count) := by
  have hinvolutive : Function.Involutive (order.channelAt count) := order.channelAt_channelAt count
  have hnodup : (order.channels count).Nodup := List.nodup_range.map hinvolutive.injective
  rw [List.perm_ext_iff_of_nodup hnodup List.nodup_range]
  intro index
  constructor
  · intro hmem
    exact List.mem_range.2 (lt_of_mem_channels hmem)
  · intro hmem
    have hmoved := order.channelAt_lt (List.mem_range.1 hmem)
    exact List.mem_map.2 ⟨_, List.mem_range.2 hmoved, order.channelAt_channelAt count index⟩

/-- Channels moved to their positions in an order. -/
def arrange (order : ChannelOrder) (channels : List (List UInt8)) : List (List UInt8) :=
  (order.channels channels.length).map fun position => channels.getD position []

theorem length_arrange (order : ChannelOrder) (channels : List (List UInt8)) :
    (order.arrange channels).length = channels.length := by
  simp [arrange, ChannelOrder.channels]

theorem getD_arrange (order : ChannelOrder) {channels : List (List UInt8)} {position : Nat}
    (h : position < channels.length) :
    (order.arrange channels).getD position [] =
      channels.getD (order.channelAt channels.length position) [] := by
  simp [arrange, ChannelOrder.channels, h]

theorem mem_of_mem_arrange {order : ChannelOrder} {channels : List (List UInt8)}
    {channel : List UInt8} (h : channel ∈ order.arrange channels) : channel ∈ channels := by
  simp only [arrange, ChannelOrder.channels, List.mem_map, List.mem_range] at h
  obtain ⟨position, ⟨i, hi, rfl⟩, rfl⟩ := h
  have hlt := order.channelAt_lt hi
  simp [List.getElem?_eq_getElem hlt]

theorem arrange_singleton (order : ChannelOrder) (channel : List UInt8) :
    order.arrange [channel] = [channel] := by
  cases order <;> rfl

theorem arrange_arrange (order : ChannelOrder) (channels : List (List UInt8)) :
    order.arrange (order.arrange channels) = channels := by
  apply List.ext_getElem
  · rw [length_arrange, length_arrange]
  · intro i hi hi'
    have hlt := order.channelAt_lt hi'
    have hmoved := getD_arrange order hlt
    rw [channelAt_channelAt] at hmoved
    have hmovedLt : i < (order.arrange channels).length := by rwa [length_arrange]
    have htwice := getD_arrange order hmovedLt
    rw [length_arrange, hmoved] at htwice
    simpa [hi, hi'] using htwice

end ChannelOrder

end ExecutorHost
