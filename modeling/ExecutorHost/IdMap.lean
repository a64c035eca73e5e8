/-!
# Maps from ids

A map from ids to values whose entries are sorted by id, each id standing once. So a map is
determined by the value that it gives to each id, whatever the order in which the values were put
in, and the first value with a property is the one of least id.
-/

namespace ExecutorHost

/-- Values under ids, sorted by id. -/
structure IdMap (α : Type) where
  /-- The ids with their values. -/
  entries : List (String × α)
  /-- The ids increase. -/
  sorted : entries.Pairwise (fun a b => a.1 < b.1)

namespace IdMap

variable {α β : Type}

/-- Entries with a value put under an id, at its sorted place. -/
def place (id : String) (value : α) : List (String × α) → List (String × α)
  | [] => [(id, value)]
  | (k, w) :: rest =>
    if id < k then (id, value) :: (k, w) :: rest
    else if id = k then (id, value) :: rest
    else (k, w) :: place id value rest

/-- The entries after a placing are the placed one and some of those before. -/
theorem mem_place {id : String} {value : α} {entries : List (String × α)} {e : String × α}
    (h : e ∈ place id value entries) : e = (id, value) ∨ e ∈ entries := by
  induction entries with
  | nil => simpa [place] using h
  | cons head rest ih =>
    obtain ⟨k, w⟩ := head
    simp only [place] at h
    split at h
    · simpa using h
    · split at h
      · rcases List.mem_cons.1 h with h | h
        · exact .inl h
        · exact .inr (List.mem_cons_of_mem _ h)
      · rcases List.mem_cons.1 h with h | h
        · exact .inr (h ▸ List.mem_cons_self)
        · exact (ih h).imp (fun h => h) (List.mem_cons_of_mem _)

/-- Placing keeps the ids increasing. -/
theorem place_sorted (id : String) (value : α) {entries : List (String × α)}
    (h : entries.Pairwise (fun a b => a.1 < b.1)) :
    (place id value entries).Pairwise (fun a b => a.1 < b.1) := by
  induction entries with
  | nil => simp [place]
  | cons head rest ih =>
    obtain ⟨k, w⟩ := head
    obtain ⟨hk, hrest⟩ := List.pairwise_cons.1 h
    simp only [place]
    split
    · rename_i hlt
      refine List.pairwise_cons.2 ⟨fun e he => ?_, h⟩
      rcases List.mem_cons.1 he with rfl | he
      · exact hlt
      · exact String.lt_trans hlt (hk e he)
    · split
      · rename_i heq
        exact List.pairwise_cons.2 ⟨fun e he => heq ▸ hk e he, hrest⟩
      · rename_i hnlt hne
        refine List.pairwise_cons.2 ⟨fun e he => ?_, ih hrest⟩
        rcases mem_place he with rfl | he
        · have hle : k ≤ id := String.not_lt.1 hnlt
          exact Decidable.byContradiction fun hn =>
            hne (String.le_antisymm (String.not_lt.1 hn) hle)
        · exact hk e he

/-- Placing a value gives it to its id. -/
theorem lookup_place_self (id : String) (value : α) (entries : List (String × α)) :
    (place id value entries).lookup id = some value := by
  induction entries with
  | nil => simp [place]
  | cons head rest ih =>
    obtain ⟨k, w⟩ := head
    simp only [place]
    split
    · simp
    · split
      · simp
      · rename_i hne
        have hb : (id == k) = false := by simpa using hne
        simp [List.lookup_cons, hb, ih]

/-- Placing a value leaves every other id alone. -/
theorem lookup_place_of_ne {id other : String} (h : other ≠ id) (value : α)
    (entries : List (String × α)) :
    (place id value entries).lookup other = entries.lookup other := by
  have hb : (other == id) = false := by simpa using h
  induction entries with
  | nil => simp [place, List.lookup_cons, hb]
  | cons head rest ih =>
    obtain ⟨k, w⟩ := head
    simp only [place]
    split
    · simp [List.lookup_cons, hb]
    · split
      · rename_i heq
        subst heq
        simp [List.lookup_cons, hb]
      · simp [List.lookup_cons, ih]

/-- The map without values. -/
def empty : IdMap α := ⟨[], .nil⟩

/-- The map with a value under an id; a value already there is replaced. -/
def insert (m : IdMap α) (id : String) (value : α) : IdMap α :=
  ⟨place id value m.entries, place_sorted id value m.sorted⟩

/-- The value of an id. -/
def get? (m : IdMap α) (id : String) : Option α := m.entries.lookup id

/-- An id has a value. -/
def contains (m : IdMap α) (id : String) : Bool := (m.get? id).isSome

/-- The map without the value of an id. -/
def erase (m : IdMap α) (id : String) : IdMap α :=
  ⟨m.entries.filter (·.1 != id), m.sorted.filter _⟩

/-- The map with every value changed by a function. -/
def map (f : α → β) (m : IdMap α) : IdMap β :=
  ⟨m.entries.map fun e => (e.1, f e.2), by
    simpa [List.pairwise_map] using m.sorted⟩

/-- The number of values. -/
def size (m : IdMap α) : Nat := m.entries.length

/-- The ids, increasing. -/
def ids (m : IdMap α) : List String := m.entries.map (·.1)

/-- The values, in the order of their ids. -/
def values (m : IdMap α) : List α := m.entries.map (·.2)

/-- The first value, in the order of ids, with a property. -/
def find? (m : IdMap α) (p : α → Bool) : Option (String × α) :=
  m.entries.find? fun e => p e.2

/-- An inserted value is found under its id. -/
@[simp] theorem get?_insert_self (m : IdMap α) (id : String) (value : α) :
    (m.insert id value).get? id = some value :=
  lookup_place_self id value m.entries

/-- Inserting leaves every other id alone. -/
theorem get?_insert_of_ne (m : IdMap α) {id other : String} (h : other ≠ id) (value : α) :
    (m.insert id value).get? other = m.get? other :=
  lookup_place_of_ne h value m.entries

/-- After an insertion an id has a value if it is the inserted one or had one before. -/
theorem contains_insert (m : IdMap α) (id other : String) (value : α) :
    (m.insert id value).contains other = (other == id || m.contains other) := by
  by_cases h : other = id
  · subst h
    simp [contains]
  · have hb : (other == id) = false := by simpa using h
    simp [contains, get?_insert_of_ne m h, hb]

/-- A value found under an id is one of the values. -/
theorem mem_values_of_get? {m : IdMap α} {id : String} {value : α} (h : m.get? id = some value) :
    value ∈ m.values := by
  unfold get? at h
  unfold values
  generalize m.entries = entries at h
  induction entries with
  | nil => simp at h
  | cons head rest ih =>
    rw [List.lookup_cons] at h
    split at h
    · exact List.mem_map.2 ⟨head, List.mem_cons_self, Option.some.inj h⟩
    · exact List.mem_cons_of_mem _ (ih h)

/-- A value found by a property is one of the values. -/
theorem mem_values_of_find? {m : IdMap α} {p : α → Bool} {e : String × α}
    (h : m.find? p = some e) : e.2 ∈ m.values :=
  List.mem_map_of_mem (List.mem_of_find?_eq_some h)

end IdMap

end ExecutorHost
