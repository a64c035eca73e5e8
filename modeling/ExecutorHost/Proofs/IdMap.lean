import ExecutorHost.IdMap
import Mathlib.Data.List.Pairwise
import Mathlib.Data.List.Sort

/-!
# Entries of maps from ids

The ids of a map are distinct, so the entries of a map and the values that are found under ids say
the same. A map filled from the entries of another one is that map again.
-/

namespace ExecutorHost.IdMap

variable {α β : Type} {m : IdMap α} {id : String} {value : α}

/-- Where no id stands twice, exactly the entries are found. -/
theorem lookup_eq_some_iff {entries : List (String × α)} (h : (entries.map (·.1)).Nodup) :
    entries.lookup id = some value ↔ (id, value) ∈ entries := by
  induction entries with
  | nil => simp
  | cons head rest ih =>
    obtain ⟨k, w⟩ := head
    obtain ⟨hnew, hrest⟩ := List.nodup_cons.1 h
    rw [List.mem_cons, List.lookup_cons, ← ih hrest]
    by_cases hid : id = k
    · subst hid
      have hnot : rest.lookup id ≠ some value := fun hl =>
        hnew (List.mem_map_of_mem (f := (·.1)) ((ih hrest).1 hl))
      simp [hnot, eq_comm]
    · have hb : (id == k) = false := by simpa using hid
      simp [hb, hid]

theorem nodup_ids (m : IdMap α) : m.ids.Nodup := by
  unfold ids
  rw [List.nodup_iff_pairwise_ne, List.pairwise_map]
  apply m.sorted.imp
  intro a b hlt heq
  rw [heq] at hlt
  exact String.lt_irrefl b.1 hlt

theorem mem_entries_iff : (id, value) ∈ m.entries ↔ m.get? id = some value :=
  (lookup_eq_some_iff m.nodup_ids).symm

theorem mem_ids_iff : id ∈ m.ids ↔ ∃ value, m.get? id = some value := by
  rw [ids, List.mem_map]
  constructor
  · rintro ⟨⟨k, w⟩, hmem, rfl⟩
    exact ⟨w, mem_entries_iff.1 hmem⟩
  · rintro ⟨w, hget⟩
    exact ⟨(id, w), mem_entries_iff.2 hget, rfl⟩

theorem contains_iff : m.contains id = true ↔ ∃ value, m.get? id = some value :=
  Option.isSome_iff_exists

/-- The value that is found by a property is found under its id and has the property. -/
theorem of_find? {p : α → Bool} (h : m.find? p = some (id, value)) :
    m.get? id = some value ∧ p value = true := by
  have hfind : m.entries.find? (fun e => p e.2) = some (id, value) := h
  exact ⟨mem_entries_iff.1 (List.mem_of_find?_eq_some hfind), by simpa using List.find?_some hfind⟩

/-- What is found by a property has the least of the ids whose values have it. -/
theorem le_of_find? {p : α → Bool} (h : m.find? p = some (id, value)) {other : String} {w : α}
    (hother : m.get? other = some w) (hw : p w = true) : id ≤ other := by
  obtain ⟨-, front, back, hsplit, hfront⟩ := List.find?_eq_some_iff_append.1 h
  have hmem := mem_entries_iff.2 hother
  have hsorted := m.sorted
  rw [hsplit] at hmem hsorted
  rcases List.mem_append.1 hmem with hearly | hlate
  · have hnot := hfront _ hearly
    rw [hw] at hnot
    cases hnot
  · rcases List.mem_cons.1 hlate with hsame | hlater
    · cases hsame
      exact String.le_refl id
    · obtain ⟨-, hback, -⟩ := List.pairwise_append.1 hsorted
      have hlt := (List.pairwise_cons.1 hback).1 _ hlater
      exact String.not_lt.1 fun hgt => String.lt_irrefl id (String.lt_trans hlt hgt)

theorem find?_eq_none_iff {p : α → Bool} :
    m.find? p = none ↔ ∀ id w, m.get? id = some w → p w = false := by
  unfold find?
  rw [List.find?_eq_none]
  constructor
  · intro h id w hget
    exact Bool.eq_false_iff.2 (h _ (mem_entries_iff.2 hget))
  · rintro h ⟨id, w⟩ hmem
    exact Bool.eq_false_iff.1 (h id w (mem_entries_iff.1 hmem))

/-- By a property the value is found that has it and the least id. -/
theorem find?_eq_some_iff {p : α → Bool} :
    m.find? p = some (id, value) ↔
      m.get? id = some value ∧ p value = true ∧
        ∀ other w, m.get? other = some w → p w = true → id ≤ other := by
  constructor
  · intro h
    obtain ⟨hget, hp⟩ := of_find? h
    exact ⟨hget, hp, fun other w => le_of_find? h⟩
  · rintro ⟨hget, hp, hleast⟩
    cases hfind : m.find? p with
    | none =>
      rw [find?_eq_none_iff.1 hfind id value hget] at hp
      cases hp
    | some e =>
      obtain ⟨k, w⟩ := e
      obtain ⟨hk, hw⟩ := of_find? hfind
      cases String.le_antisymm (le_of_find? hfind hget hp) (hleast k w hk hw)
      cases hk.symm.trans hget
      rfl

theorem ext_get? {a b : IdMap α} (h : ∀ id, a.get? id = b.get? id) : a = b := by
  have hirrefl : Std.Irrefl fun a b : String × α => a.1 < b.1 := ⟨fun e => String.lt_irrefl e.1⟩
  have hantisymm : Std.Antisymm fun a b : String × α => a.1 < b.1 :=
    ⟨fun d e hde hed => absurd (String.lt_trans hde hed) (String.lt_irrefl d.1)⟩
  have hentries : a.entries = b.entries := by
    refine List.Pairwise.eq_of_mem_iff a.sorted b.sorted fun e => ?_
    rw [mem_entries_iff, mem_entries_iff, h]
  cases a
  cases b
  cases hentries
  rfl

theorem get?_insert (m : IdMap α) (id other : String) (value : α) :
    (m.insert id value).get? other = if id = other then some value else m.get? other := by
  by_cases h : id = other
  · rw [if_pos h, ← h, get?_insert_self]
  · rw [if_neg h, get?_insert_of_ne m (Ne.symm h)]

theorem get?_erase (m : IdMap α) (id other : String) :
    (m.erase id).get? other = if id = other then none else m.get? other := by
  apply Option.ext
  intro w
  rw [← mem_entries_iff, erase, List.mem_filter, mem_entries_iff]
  by_cases h : id = other
  · simp [h]
  · simp [h, Ne.symm h]

theorem get?_map (f : α → β) (m : IdMap α) (id : String) :
    (m.map f).get? id = (m.get? id).map f := by
  show (m.entries.map fun e => (e.1, f e.2)).lookup id = (m.entries.lookup id).map f
  induction m.entries with
  | nil => rfl
  | cons head rest ih =>
    obtain ⟨k, w⟩ := head
    rw [List.map_cons, List.lookup_cons, List.lookup_cons, ih]
    cases id == k <;> rfl

/-- A list made entry by entry, to which only the entry of one id adds something. -/
theorem flatMap_entries (m : IdMap α) {f : String × α → List β}
    (h : ∀ e ∈ m.entries, e.1 ≠ id → f e = []) :
    m.entries.flatMap f = (m.get? id).elim [] fun value => f (id, value) := by
  cases hget : m.get? id with
  | none =>
    refine List.flatMap_eq_nil_iff.2 fun e he => h e he ?_
    rintro rfl
    rw [mem_entries_iff.1 (show (e.1, e.2) ∈ m.entries from he)] at hget
    cases hget
  | some value =>
    have hmem : (id, value) ∈ m.entries := mem_entries_iff.2 hget
    obtain ⟨front, back, hsplit⟩ := List.append_of_mem hmem
    have hsorted := m.sorted
    rw [hsplit] at hsorted
    obtain ⟨-, hback, hfront⟩ := List.pairwise_append.1 hsorted
    have hfrontNil : front.flatMap f = [] := List.flatMap_eq_nil_iff.2 fun e he => by
      refine h e (hsplit ▸ List.mem_append_left _ he) fun heq => ?_
      have hlt := hfront e he _ List.mem_cons_self
      exact String.lt_irrefl id (heq ▸ hlt)
    have hbackNil : back.flatMap f = [] := List.flatMap_eq_nil_iff.2 fun e he => by
      refine h e (hsplit ▸ List.mem_append_right _ (List.mem_cons_of_mem _ he)) fun heq => ?_
      have hlt := (List.pairwise_cons.1 hback).1 e he
      exact String.lt_irrefl id (heq ▸ hlt)
    rw [hsplit, List.flatMap_append, List.flatMap_cons, hfrontNil, hbackNil]
    simp

/-! ## Filling a map -/

/-- An id behind all others is placed at the end. -/
theorem place_of_lt {entries : List (String × α)} (h : ∀ e ∈ entries, e.1 < id) :
    place id value entries = entries ++ [(id, value)] := by
  induction entries with
  | nil => rfl
  | cons head rest ih =>
    obtain ⟨k, w⟩ := head
    have hlt : k < id := h _ List.mem_cons_self
    have hnot : ¬ id < k := fun h' => String.lt_irrefl k (String.lt_trans hlt h')
    have hne : id ≠ k := fun e => String.lt_irrefl k (e ▸ hlt)
    rw [place, if_neg hnot, if_neg hne, ih fun e he => h e (List.mem_cons_of_mem _ he)]
    rfl

/-- Values put in one after another, in the order of their ids, stand behind those before. -/
theorem entries_foldl_insert {l : List (String × α)}
    (h : (m.entries ++ l).Pairwise fun a b => a.1 < b.1) :
    (l.foldl (fun m e => m.insert e.1 e.2) m).entries = m.entries ++ l := by
  induction l generalizing m with
  | nil => exact (List.append_nil _).symm
  | cons head rest ih =>
    obtain ⟨k, w⟩ := head
    have hlt : ∀ e ∈ m.entries, e.1 < k := fun e he =>
      (List.pairwise_append.1 h).2.2 e he (k, w) List.mem_cons_self
    have hinsert : (m.insert k w).entries = m.entries ++ [(k, w)] := place_of_lt hlt
    have hsorted : ((m.insert k w).entries ++ rest).Pairwise fun a b => a.1 < b.1 := by
      rw [hinsert, List.append_assoc]
      exact h
    rw [List.foldl_cons, ih hsorted, hinsert, List.append_assoc]
    rfl

end ExecutorHost.IdMap
