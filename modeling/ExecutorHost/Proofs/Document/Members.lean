import ExecutorHost.Document.Basic
import Mathlib.Data.List.Nodup
import Mathlib.Data.List.Permutation
import Mathlib.Data.Option.Defs

/-!
# Members of objects

What looking up, putting and overlaying do to the keys of an object and to the value of each key.
Overlaying one object by another keeps the order of the first and appends the keys that are new.
-/

namespace ExecutorHost.Members

/-! ## Keys and values -/

instance (members : Members) : Decidable (Distinct members) :=
  inferInstanceAs (Decidable (keys members).Nodup)

@[simp] theorem keys_nil : keys [] = [] := rfl

@[simp] theorem keys_cons (entry : String × Document) (rest : Members) :
    keys (entry :: rest) = entry.1 :: keys rest := rfl

@[simp] theorem keys_append (a b : Members) : keys (a ++ b) = keys a ++ keys b :=
  List.map_append

@[simp] theorem get?_nil (key : String) : get? [] key = none := rfl

theorem get?_cons (k : String) (v : Document) (rest : Members) (key : String) :
    get? ((k, v) :: rest) key = if k = key then some v else get? rest key := rfl

theorem get?_eq_none_iff {members : Members} {key : String} :
    get? members key = none ↔ key ∉ keys members := by
  induction members with
  | nil => simp
  | cons entry rest ih =>
    obtain ⟨k, v⟩ := entry
    rw [get?_cons, keys_cons, List.mem_cons, not_or]
    by_cases h : k = key
    · simp [h]
    · rw [if_neg h, ih]
      exact ⟨fun hr => ⟨fun e => h e.symm, hr⟩, fun hr => hr.2⟩

theorem mem_keys_iff {members : Members} {key : String} :
    key ∈ keys members ↔ ∃ value, get? members key = some value := by
  rw [← Option.ne_none_iff_exists', ne_eq, get?_eq_none_iff, not_not]

theorem mem_of_get? {members : Members} {key : String} {value : Document}
    (h : get? members key = some value) : (key, value) ∈ members := by
  induction members with
  | nil => cases h
  | cons entry rest ih =>
    obtain ⟨k, v⟩ := entry
    rw [get?_cons] at h
    split at h
    · rename_i hk
      cases h
      exact hk ▸ List.mem_cons_self
    · exact List.mem_cons_of_mem _ (ih h)

/-- If no key stands twice, every value that stands among the members is looked up. -/
theorem get?_of_mem {members : Members} (hdistinct : Distinct members) {key : String}
    {value : Document} (h : (key, value) ∈ members) : get? members key = some value := by
  induction members with
  | nil => cases h
  | cons entry rest ih =>
    obtain ⟨k, v⟩ := entry
    obtain ⟨hnew, hrest⟩ := List.nodup_cons.1 (show (k :: keys rest).Nodup from hdistinct)
    rw [get?_cons]
    rcases List.mem_cons.1 h with heq | hlater
    · cases heq
      exact if_pos rfl
    · have hne : k ≠ key := by
        rintro rfl
        exact hnew (List.mem_map_of_mem (f := (·.1)) hlater)
      rw [if_neg hne, ih hrest hlater]

theorem get?_append (a b : Members) (key : String) :
    get? (a ++ b) key = (get? a key).or (get? b key) := by
  induction a with
  | nil => simp
  | cons entry rest ih =>
    obtain ⟨k, v⟩ := entry
    rw [List.cons_append, get?_cons, get?_cons]
    by_cases h : k = key
    · simp [h]
    · rw [if_neg h, if_neg h, ih]

/-- Keeping the members with certain keys keeps the values of these keys. -/
theorem get?_filter (p : String → Bool) (members : Members) (key : String) :
    get? (members.filter fun e => p e.1) key = if p key then get? members key else none := by
  induction members with
  | nil => simp
  | cons entry rest ih =>
    obtain ⟨k, v⟩ := entry
    rw [List.filter_cons]
    by_cases hk : k = key
    · subst hk
      by_cases hp : p k = true
      · simp [hp, get?_cons]
      · rw [if_neg hp, ih, if_neg hp, if_neg hp]
    · by_cases hp : p k = true
      · rw [if_pos hp, get?_cons, get?_cons, if_neg hk, if_neg hk, ih]
      · rw [if_neg hp, ih, get?_cons, if_neg hk]

theorem keys_filter (p : String → Bool) (members : Members) :
    keys (members.filter fun e => p e.1) = (keys members).filter p := by
  rw [keys, keys, List.filter_map]
  rfl

/-- Objects with the same keys in the same order and the same values are equal. -/
theorem eq_of_keys_eq {a b : Members} (hd : Distinct a) (hk : keys a = keys b)
    (hv : ∀ key, get? a key = get? b key) : a = b := by
  induction a generalizing b with
  | nil =>
    cases b with
    | nil => rfl
    | cons entry rest => cases hk
  | cons entry rest ih =>
    cases b with
    | nil => cases hk
    | cons entry' rest' =>
      obtain ⟨k, v⟩ := entry
      obtain ⟨k', v'⟩ := entry'
      obtain ⟨rfl, hrest⟩ := List.cons.inj (show k :: keys rest = k' :: keys rest' from hk)
      obtain ⟨hnot, hd⟩ := List.nodup_cons.1 (show (k :: keys rest).Nodup from hd)
      have hhead := hv k
      simp only [get?_cons, if_true, Option.some.injEq] at hhead
      subst hhead
      refine congrArg _ (ih hd hrest fun key => ?_)
      by_cases h : k = key
      · subst h
        rw [get?_eq_none_iff.2 hnot, get?_eq_none_iff.2 (show k ∉ keys rest' from hrest ▸ hnot)]
      · simpa [get?_cons, h] using hv key

theorem objectAt_of_object {members inner : Members} {key : String}
    (h : get? members key = some (.object inner)) : objectAt members key = inner := by
  simp [objectAt, h]

@[simp] theorem objectAt_nil (key : String) : objectAt [] key = [] := rfl

/-- Under a key there is nothing, an object or something else; only an object has members. -/
theorem get?_cases (members : Members) (key : String) :
    (get? members key = none ∧ objectAt members key = []) ∨
    (∃ inner, get? members key = some (.object inner) ∧ objectAt members key = inner) ∨
    (∃ value, get? members key = some value ∧ (∀ inner, value ≠ .object inner) ∧
      objectAt members key = []) := by
  cases h : get? members key with
  | none => exact .inl ⟨rfl, by simp [objectAt, h]⟩
  | some value =>
    right
    cases value with
    | object inner => exact .inl ⟨inner, rfl, objectAt_of_object h⟩
    | _ => exact .inr ⟨_, rfl, by simp, by simp [objectAt, h]⟩

/-- The object under a key depends on the value of the key only. -/
theorem objectAt_congr {a b : Members} {key : String} (h : get? a key = get? b key) :
    objectAt a key = objectAt b key := by
  simp only [objectAt, h]

/-! ## Putting -/

@[simp] theorem get?_put_self (members : Members) (key : String) (value : Document) :
    get? (put members key value) key = some value := by
  induction members with
  | nil => simp [put, get?_cons]
  | cons entry rest ih =>
    obtain ⟨k, v⟩ := entry
    rw [put]
    split
    · simp [get?_cons]
    · rename_i h
      rw [get?_cons, if_neg h, ih]

theorem get?_put_of_ne (members : Members) {key other : String} (h : other ≠ key)
    (value : Document) : get? (put members key value) other = get? members other := by
  induction members with
  | nil => simp [put, get?_cons, h.symm]
  | cons entry rest ih =>
    obtain ⟨k, v⟩ := entry
    rw [put]
    split
    · rename_i hk
      subst hk
      rw [get?_cons, get?_cons, if_neg h.symm, if_neg h.symm]
    · rw [get?_cons, get?_cons, ih]

theorem put_of_notMem {members : Members} {key : String} (h : key ∉ keys members)
    (value : Document) : put members key value = members ++ [(key, value)] := by
  induction members with
  | nil => rfl
  | cons entry rest ih =>
    obtain ⟨k, v⟩ := entry
    rw [keys_cons, List.mem_cons, not_or] at h
    rw [put, if_neg (fun e => h.1 e.symm), ih h.2, List.cons_append]

/-- A key that is there keeps its place. -/
theorem put_append_cons {front : Members} {key : String} (h : key ∉ keys front)
    (old value : Document) (back : Members) :
    put (front ++ (key, old) :: back) key value = front ++ (key, value) :: back := by
  induction front with
  | nil => simp [put]
  | cons entry rest ih =>
    obtain ⟨k, v⟩ := entry
    rw [keys_cons, List.mem_cons, not_or] at h
    rw [List.cons_append, put, if_neg (fun e => h.1 e.symm), ih h.2, List.cons_append]

theorem keys_put (members : Members) (key : String) (value : Document) :
    keys (put members key value) =
      if key ∈ keys members then keys members else keys members ++ [key] := by
  induction members with
  | nil => simp [put]
  | cons entry rest ih =>
    obtain ⟨k, v⟩ := entry
    by_cases hk : k = key
    · simp [put, hk]
    · have hk' : key ≠ k := fun e => hk e.symm
      rw [put, if_neg hk, keys_cons, keys_cons, ih]
      by_cases h : key ∈ keys rest
      · simp [h]
      · simp [h, hk']

theorem put_put (members : Members) (key : String) (first second : Document) :
    put (put members key first) key second = put members key second := by
  induction members with
  | nil => simp [put]
  | cons entry rest ih =>
    obtain ⟨k, v⟩ := entry
    by_cases h : k = key
    · simp [put, h]
    · simp only [put, if_neg h, ih]

theorem put_of_get? {members : Members} {key : String} {value : Document}
    (h : get? members key = some value) : put members key value = members := by
  induction members with
  | nil => cases h
  | cons entry rest ih =>
    obtain ⟨k, v⟩ := entry
    rw [get?_cons] at h
    by_cases hk : k = key
    · rw [if_pos hk] at h
      cases h
      rw [put, if_pos hk, hk]
    · rw [if_neg hk] at h
      rw [put, if_neg hk, ih h]

theorem distinct_put {members : Members} (h : Distinct members) (key : String)
    (value : Document) : Distinct (put members key value) := by
  rw [Distinct, keys_put]
  split
  · exact h
  · rename_i hk
    exact List.nodup_append.2 ⟨h, List.nodup_singleton _, fun a ha b hb e =>
      hk (List.mem_singleton.1 hb ▸ e ▸ ha)⟩

theorem get?_putOptional_self (members : Members) (key : String) (value : Option Document) :
    get? (putOptional members key value) key = value.or (get? members key) := by
  cases value with
  | none => rfl
  | some v => exact get?_put_self members key v

theorem get?_putOptional_of_ne (members : Members) {key other : String} (h : other ≠ key)
    (value : Option Document) :
    get? (putOptional members key value) other = get? members other := by
  cases value with
  | none => rfl
  | some v => exact get?_put_of_ne members h v

/-- A new key goes to the end if there is a value for it. -/
theorem keys_putOptional (members : Members) (key : String) (value : Option Document) :
    keys (putOptional members key value) =
      keys members ++ if value.isSome = true ∧ key ∉ keys members then [key] else [] := by
  cases value with
  | none => simp [putOptional]
  | some v =>
    rw [putOptional, keys_put]
    by_cases h : key ∈ keys members <;> simp [h]

/-! ## Overlaying -/

@[simp] theorem overlay_nil (base : Members) : overlay base [] = base := rfl

theorem overlay_cons (base : Members) (key : String) (value : Document) (rest : Members) :
    overlay base ((key, value) :: rest) = overlay (put base key value) rest := rfl

/-- The keys that are new go to the end, in their order. -/
theorem keys_overlay (base : Members) {upper : Members} (h : Distinct upper) :
    keys (overlay base upper) = keys base ++ (keys upper).filter (· ∉ keys base) := by
  induction upper generalizing base with
  | nil => simp
  | cons entry rest ih =>
    obtain ⟨k, v⟩ := entry
    obtain ⟨hk, hrest⟩ := List.nodup_cons.1 (show (k :: keys rest).Nodup from h)
    rw [overlay_cons, ih _ hrest, keys_put, keys_cons, List.filter_cons]
    by_cases hb : k ∈ keys base
    · simp [hb]
    · have hcongr : (keys rest).filter (fun x => decide (x ∉ keys base ++ [k])) =
          (keys rest).filter fun x => decide (x ∉ keys base) := by
        refine List.filter_congr fun x hx => ?_
        have hne : x ≠ k := fun e => hk (e ▸ hx)
        simp [hne]
      rw [if_neg hb, if_pos (by simpa using hb), hcongr, List.append_assoc, List.singleton_append]

theorem get?_overlay (base : Members) {upper : Members} (h : Distinct upper) (key : String) :
    get? (overlay base upper) key = (get? upper key).or (get? base key) := by
  induction upper generalizing base with
  | nil => simp
  | cons entry rest ih =>
    obtain ⟨k, v⟩ := entry
    obtain ⟨hk, hrest⟩ := List.nodup_cons.1 (show (k :: keys rest).Nodup from h)
    rw [overlay_cons, ih _ hrest, get?_cons]
    by_cases he : k = key
    · subst he
      rw [get?_eq_none_iff.2 hk, get?_put_self, if_pos rfl]
      rfl
    · rw [get?_put_of_ne _ (fun e => he e.symm), if_neg he]

theorem distinct_overlay {base : Members} (h : Distinct base) (upper : Members) :
    Distinct (overlay base upper) := by
  induction upper generalizing base with
  | nil => exact h
  | cons entry rest ih => exact ih (distinct_put h entry.1 entry.2)

theorem get?_map (f : String → Document → Document) (members : Members) (key : String) :
    get? (members.map fun e => (e.1, f e.1 e.2)) key = (get? members key).map (f key) := by
  induction members with
  | nil => rfl
  | cons entry rest ih =>
    obtain ⟨k, v⟩ := entry
    rw [List.map_cons, get?_cons, get?_cons]
    by_cases h : k = key
    · simp [h]
    · rw [if_neg h, if_neg h, ih]

theorem keys_map (f : String → Document → Document) (members : Members) :
    keys (members.map fun e => (e.1, f e.1 e.2)) = keys members := by
  rw [keys, List.map_map]
  rfl

/-- Own members followed by those of another object that have other keys. -/
def followedBy (own others : Members) : Members :=
  own ++ others.filter fun e => e.1 ∉ keys own

@[simp] theorem followedBy_nil (own : Members) : followedBy own [] = own :=
  List.append_nil own

theorem keys_followedBy (own others : Members) :
    keys (followedBy own others) = keys own ++ (keys others).filter (· ∉ keys own) := by
  rw [followedBy, keys_append, keys_filter fun k => decide (k ∉ keys own)]

theorem get?_followedBy (own others : Members) (key : String) :
    get? (followedBy own others) key = (get? own key).or (get? others key) := by
  rw [followedBy, get?_append, get?_filter fun k => decide (k ∉ keys own)]
  by_cases h : key ∈ keys own
  · obtain ⟨value, hv⟩ := mem_keys_iff.1 h
    rw [hv, Option.some_or, Option.some_or]
  · rw [if_pos (by simpa using h)]

theorem distinct_followedBy {own others : Members} (hown : Distinct own)
    (hothers : Distinct others) : Distinct (followedBy own others) := by
  rw [Distinct, keys_followedBy]
  refine List.nodup_append.2 ⟨hown, hothers.filter _, fun a ha b hb e => ?_⟩
  have := (List.mem_filter.1 hb).2
  simp only [decide_eq_true_eq] at this
  exact this (e ▸ ha)

/-- Members that follow already do not follow once more. -/
theorem keys_followedBy_followedBy {own own' : Members} (h : keys own' = keys own)
    (others : Members) :
    keys (followedBy own' (followedBy own others)) = keys (followedBy own others) := by
  have hown : (keys own).filter (fun k => decide (k ∉ keys own)) = [] :=
    List.filter_eq_nil_iff.2 fun k hk => by simpa using hk
  rw [keys_followedBy, h, keys_followedBy, List.filter_append, hown, List.filter_filter,
    List.nil_append]
  simp

/-- Overlaying changes the values that are there, and the members with new keys follow. -/
theorem overlay_eq {base upper : Members} (hbase : Distinct base) (hupper : Distinct upper) :
    overlay base upper =
      followedBy (base.map fun e => (e.1, (get? upper e.1).getD e.2)) upper := by
  have hkeys := keys_map (fun k v => (get? upper k).getD v) base
  refine eq_of_keys_eq (distinct_overlay hbase upper) ?_ fun key => ?_
  · rw [keys_overlay base hupper, keys_followedBy, hkeys]
  · rw [get?_overlay base hupper, get?_followedBy, get?_map fun k v => (get? upper k).getD v]
    cases get? base key <;> cases get? upper key <;> rfl

/-- No key stands twice, neither here nor in an object among the values, at any depth. -/
inductive WellFormed : Members → Prop
  /-- The keys are distinct, and every object among the values is well-formed. -/
  | intro {members : Members} (distinct : Distinct members)
      (inner : ∀ key below, get? members key = some (.object below) → WellFormed below) :
      WellFormed members

/-- An object is well-formed if its keys are distinct and the objects among its values are. -/
theorem wellFormed_of_forall {members : Members} (hd : Distinct members)
    (h : ∀ e ∈ members, ∀ below, e.2 = .object below → WellFormed below) : WellFormed members :=
  .intro hd fun _ below hget => h _ (mem_of_get? hget) below rfl

theorem WellFormed.objectAt {members : Members} (h : members.WellFormed) (key : String) :
    (Members.objectAt members key).WellFormed := by
  have hempty : WellFormed [] := .intro List.nodup_nil fun _ _ hget => nomatch hget
  obtain ⟨-, hinner⟩ := h
  rcases get?_cases members key with ⟨-, hat⟩ | ⟨inner, hget, hat⟩ | ⟨-, -, -, hat⟩
  · rwa [hat]
  · rw [hat]
    exact hinner key inner hget
  · rwa [hat]

end ExecutorHost.Members

namespace ExecutorHost

/-- Two documents have the same entries at every level of objects, in whatever order. -/
inductive Document.SameEntries : Document → Document → Prop
  /-- A document has the same entries as itself. -/
  | refl (document : Document) : SameEntries document document
  /-- Objects have the same entries if they have the same keys and the values of each key have the
  same entries. -/
  | object {a b : Members} (keys : (Members.keys a).Perm (Members.keys b))
      (values : ∀ key v w, Members.get? a key = some v → Members.get? b key = some w →
        SameEntries v w) : SameEntries (.object a) (.object b)

namespace Members

/-- Two objects have the same entries at every level, in whatever order. -/
def SameEntries (a b : Members) : Prop := Document.SameEntries (.object a) (.object b)

/-- Objects have the same entries if every key has either no value in both or values with the same
entries. -/
theorem SameEntries.of_rel {a b : Members} (ha : Distinct a) (hb : Distinct b)
    (h : ∀ key, Option.Rel Document.SameEntries (get? a key) (get? b key)) : SameEntries a b := by
  refine .object ((List.perm_ext_iff_of_nodup ha hb).2 fun key => ?_) fun key v w hv hw => ?_
  · have hkey := h key
    rw [← not_iff_not, ← get?_eq_none_iff, ← get?_eq_none_iff]
    generalize get? a key = v, get? b key = w at hkey
    cases hkey <;> simp
  · have hkey := h key
    rw [hv, hw] at hkey
    cases hkey with
    | some hvw => exact hvw

theorem rel_of_eq {a b : Option Document} (h : a = b) :
    Option.Rel Document.SameEntries a b := by
  subst h
  cases a with
  | none => exact .none
  | some v => exact .some (.refl v)

end Members

end ExecutorHost
