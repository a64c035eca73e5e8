import ExecutorHost.Document.Field
import ExecutorHost.Proofs.Document.Members
import ExecutorHost.Proofs.Outcome

/-!
# Reading typed members

What has been written under a key is read from it: the forms of a member are written by one function
and read by another, and a member that is left out is read as absent.
-/

namespace ExecutorHost

namespace Document

theorem eq_string_of_string? {text : String} (d : Document) (h : d.string? = some text) :
    d = .string text := by
  cases d with
  | string s =>
    cases h
    rfl
  | _ => cases h

theorem eq_object_of_members? {members : Members} (d : Document) (h : d.members? = some members) :
    d = .object members := by
  cases d with
  | object inner =>
    cases h
    rfl
  | _ => cases h

end Document

namespace Members

variable {members : Members} {key : String}

/-! ## Reading what has been written -/

/-- A member that has been written in a form, or left out, is read in that form. -/
theorem optional_of_get? {α : Type} {wanted : MemberKind} (read : Document → Option α)
    (write : α → Document) (hread : ∀ a, read (write a) = some a) (hnull : ∀ a, write a ≠ .null)
    {value : Option α} (h : get? members key = value.map write) :
    optional wanted read members key = .ok value := by
  unfold optional
  rw [h]
  cases value with
  | none => rfl
  | some a =>
    rw [Option.map_some]
    split
    · rename_i hnone
      cases hnone
    · rename_i heq
      exact absurd (Option.some.inj heq) (hnull a)
    · rename_i d _ heq
      cases heq
      rw [hread]

theorem string?_of_get? {value : Option String} (h : get? members key = value.map .string) :
    string? members key = .ok value :=
  optional_of_get? Document.string? .string (fun _ => rfl) (by simp) h

theorem array?_of_get? {value : Option (List Document)}
    (h : get? members key = value.map .array) : array? members key = .ok value :=
  optional_of_get? Document.items? .array (fun _ => rfl) (by simp) h

theorem object?_of_get? {value : Option Members} (h : get? members key = value.map .object) :
    object? members key = .ok value :=
  optional_of_get? Document.members? .object (fun _ => rfl) (by simp) h

theorem string_of_get? {value : String} (h : get? members key = some (.string value)) :
    string members key = .ok value := by
  have hread : string? members key = .ok (some value) := string?_of_get? h
  unfold string? at hread
  unfold string required
  rw [hread]
  rfl

/-- Items that have all been written in a form are read in it. -/
theorem allOf_map {α : Type} {wanted : MemberKind} (read : Document → Option α)
    (write : α → Document) (hread : ∀ a, read (write a) = some a) (items : List α) :
    allOf wanted read key (items.map write) = .ok items := by
  unfold allOf
  rw [List.mapM_map, mapM_eq_ok_map (g := id), List.map_id]
  intro a _
  rw [Function.comp_apply, hread]
  rfl

theorem strings?_of_get? {value : Option (List String)}
    (h : get? members key = value.map fun texts => .array (texts.map .string)) :
    strings? members key = .ok value := by
  have hread : array? members key = .ok (value.map (·.map .string)) := by
    apply array?_of_get?
    rw [h, Option.map_map]
    rfl
  unfold strings?
  rw [hread]
  cases value with
  | none => rfl
  | some texts =>
    have hall : allStrings key (texts.map .string) = .ok texts :=
      allOf_map Document.string? .string (fun _ => rfl) texts
    show (allStrings key (texts.map .string)).map some = _
    rw [hall]
    rfl

theorem objects?_of_get? {value : Option (List Members)}
    (h : get? members key = value.map fun objects => .array (objects.map .object)) :
    objects? members key = .ok value := by
  have hread : array? members key = .ok (value.map (·.map .object)) := by
    apply array?_of_get?
    rw [h, Option.map_map]
    rfl
  unfold objects?
  rw [hread]
  cases value with
  | none => rfl
  | some objects =>
    have hall : allObjects key (objects.map .object) = .ok objects :=
      allOf_map Document.members? .object (fun _ => rfl) objects
    show (allObjects key (objects.map .object)).map some = _
    rw [hall]
    rfl

theorem objects_of_get? {value : List Members}
    (h : get? members key = some (.array (value.map .object))) :
    objects members key = .ok value := by
  have hread : objects? members key = .ok (some value) := objects?_of_get? h
  unfold objects
  rw [hread]
  rfl

/-! ## What has been read -/

/-- A member is not there, or it is null. -/
def Absent (members : Members) (key : String) : Prop :=
  ∀ d, get? members key = some d → d = .null

/-- A member that may be left out has been read as absent, or else in the form. -/
theorem cases_of_optional {α : Type} {wanted : MemberKind} {form : Document → Option α}
    {value : Option α} (h : optional wanted form members key = .ok value) :
    (value = none ∧ Absent members key) ∨
      ∃ d a, get? members key = some d ∧ form d = some a ∧ value = some a := by
  unfold optional at h
  split at h
  · rename_i hnone
    cases h
    left
    refine ⟨rfl, fun d hd => ?_⟩
    rw [hnone] at hd
    cases hd
  · rename_i hnull
    cases h
    left
    refine ⟨rfl, fun d hd => ?_⟩
    rw [hnull] at hd
    cases hd
    rfl
  · rename_i d _ hd
    cases hform : form d with
    | none =>
      rw [hform] at h
      cases h
    | some a =>
      rw [hform] at h
      cases h
      exact .inr ⟨d, a, hd, hform, rfl⟩

/-- What is read of a member that may be left out is the form of what is found. -/
theorem eq_bind_of_optional {α : Type} {wanted : MemberKind} {form : Document → Option α}
    (hnull : form .null = none) {value : Option α}
    (h : optional wanted form members key = .ok value) :
    value = (get? members key).bind form := by
  rcases cases_of_optional h with ⟨rfl, habsent⟩ | ⟨d, a, hd, hform, rfl⟩
  · cases hget : get? members key with
    | none => rfl
    | some d => rw [habsent d hget, Option.bind_some, hnull]
  · rw [hd, Option.bind_some, hform]

theorem exists_of_required {α : Type} {wanted : MemberKind} {form : Document → Option α}
    {value : α} (h : required wanted form members key = .ok value) :
    ∃ d, get? members key = some d ∧ form d = some value := by
  obtain ⟨read, hread, h⟩ := exists_of_bind_eq_ok h
  rcases cases_of_optional hread with ⟨rfl, -⟩ | ⟨d, a, hd, hform, rfl⟩
  · cases h
  · cases h
    exact ⟨d, hd, hform⟩

/-- If the items of an array have been read, all of them have the form. -/
theorem map_of_allOf {α : Type} {wanted : MemberKind} {form : Document → Option α}
    {items : List Document} {values : List α} (h : allOf wanted form key items = .ok values) :
    items.map form = values.map some := by
  have hread : List.Forall₂ (fun d value => form d = some value) items values := by
    apply (forall₂_of_mapM_eq_ok h).imp
    intro d value hd
    cases hform : form d with
    | none =>
      rw [hform] at hd
      cases hd
    | some a =>
      rw [hform] at hd
      cases hd
      rfl
  rw [← List.forall₂_eq_eq_eq, List.forall₂_map_left_iff, List.forall₂_map_right_iff]
  exact hread

/-- A list that may be left out has been read as absent, or else item by item. -/
theorem cases_of_list {α : Type} {wanted : MemberKind} {form : Document → Option α}
    {write : α → Document} (hform : ∀ d a, form d = some a → d = write a)
    {value : Option (List α)}
    (h : (array? members key >>= fun
      | some items => (allOf wanted form key items).map some
      | none => .ok none) = .ok value) :
    (value = none ∧ Absent members key) ∨
      ∃ values, get? members key = some (.array (values.map write)) ∧ value = some values := by
  obtain ⟨read, harray, h⟩ := exists_of_bind_eq_ok h
  rcases cases_of_optional harray with ⟨rfl, habsent⟩ | ⟨d, items, hd, hitems, rfl⟩
  · cases h
    exact .inl ⟨rfl, habsent⟩
  · right
    obtain ⟨values, hall, rfl⟩ := exists_of_map_eq_ok h
    have hread := map_of_allOf hall
    rw [← List.forall₂_eq_eq_eq, List.forall₂_map_left_iff, List.forall₂_map_right_iff] at hread
    have hwritten : items = values.map write := by
      rw [← List.forall₂_eq_eq_eq, List.forall₂_map_right_iff]
      exact hread.imp hform
    cases d with
    | array found =>
      cases hitems
      exact ⟨values, hwritten ▸ hd, rfl⟩
    | _ => cases hitems

theorem cases_of_strings? {value : Option (List String)} (h : strings? members key = .ok value) :
    (value = none ∧ Absent members key) ∨
      ∃ texts, get? members key = some (.array (texts.map .string)) ∧ value = some texts :=
  cases_of_list (fun d _ => Document.eq_string_of_string? d) h

theorem cases_of_objects? {value : Option (List Members)} (h : objects? members key = .ok value) :
    (value = none ∧ Absent members key) ∨
      ∃ objects, get? members key = some (.array (objects.map .object)) ∧ value = some objects :=
  cases_of_list (fun d _ => Document.eq_object_of_members? d) h

theorem get?_of_objects {values : List Members} (h : objects members key = .ok values) :
    get? members key = some (.array (values.map .object)) := by
  obtain ⟨read, hread, h⟩ := exists_of_bind_eq_ok h
  rcases cases_of_objects? hread with ⟨rfl, -⟩ | ⟨objects, hfound, rfl⟩
  · cases h
  · cases h
    exact hfound

/-! ## Entries -/

/-- The members that entries write, where those without a value are left out. -/
def present (entries : List (String × Option Document)) : Members :=
  entries.filterMap fun (key, value) => value.map (key, ·)

theorem mem_keys_of_mem_present {entries : List (String × Option Document)}
    (h : key ∈ keys (present entries)) : key ∈ entries.map (·.1) := by
  obtain ⟨⟨k, d⟩, hentry, rfl⟩ := List.mem_map.1 h
  obtain ⟨⟨k', v⟩, hmem, hmap⟩ := List.mem_filterMap.1 hentry
  obtain ⟨d', -, hpair⟩ := Option.map_eq_some_iff.1 hmap
  cases hpair
  exact List.mem_map_of_mem (f := (·.1)) hmem

theorem distinct_present {entries : List (String × Option Document)}
    (hdistinct : (entries.map (·.1)).Nodup) : Distinct (present entries) := by
  induction entries with
  | nil => exact .nil
  | cons entry rest ih =>
    obtain ⟨k, v⟩ := entry
    obtain ⟨hnew, hrest⟩ := List.nodup_cons.1 hdistinct
    cases v with
    | none => exact ih hrest
    | some d =>
      refine List.nodup_cons.2 ⟨?_, ih hrest⟩
      exact fun hkey => hnew (mem_keys_of_mem_present hkey)

/-- Of entries with distinct keys each one is found under its key. -/
theorem get?_present {entries : List (String × Option Document)}
    (hdistinct : (entries.map (·.1)).Nodup) {value : Option Document}
    (hmem : (key, value) ∈ entries) : get? (present entries) key = value := by
  induction entries with
  | nil => cases hmem
  | cons entry rest ih =>
    obtain ⟨k, v⟩ := entry
    obtain ⟨hnew, hrest⟩ := List.nodup_cons.1 hdistinct
    rcases List.mem_cons.1 hmem with heq | hlater
    · cases heq
      -- no later entry has the key, so nothing is found if this one is not written
      have habsent : get? (present rest) key = none := by
        rw [get?_eq_none_iff]
        intro hkey
        exact hnew (mem_keys_of_mem_present hkey)
      cases value with
      | none => exact habsent
      | some d => simp [present, get?_cons]
    · have hne : k ≠ key := by
        rintro rfl
        exact hnew (List.mem_map_of_mem (f := (·.1)) hlater)
      cases v with
      | none => exact ih hrest hlater
      | some d =>
        rw [present, List.filterMap_cons_some (by rfl), get?_cons, if_neg hne]
        exact ih hrest hlater

end Members

end ExecutorHost
