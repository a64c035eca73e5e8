import Mathlib.Data.List.Forall2

/-!
# Outcomes of several steps

Several steps succeed together if and only if each of them does. Where only that matters and not the
result, it is said by one predicate, which goes through the steps like a conjunction.
-/

namespace ExecutorHost

variable {ε ε' α β : Type}

/-- If two steps succeed, the first one does. -/
theorem exists_of_bind_eq_ok {x : Except ε α} {f : α → Except ε β} {b : β}
    (h : (x >>= f) = .ok b) : ∃ a, x = .ok a ∧ f a = .ok b := by
  cases x with
  | error e => cases h
  | ok a => exact ⟨a, rfl, h⟩

theorem mapError_eq_ok_iff {f : ε → ε'} {x : Except ε α} {a : α} :
    x.mapError f = .ok a ↔ x = .ok a := by
  cases x <;> simp [Except.mapError]

theorem exists_of_mapError_eq_error {f : ε → ε'} {x : Except ε α} {e : ε'}
    (h : x.mapError f = .error e) : ∃ e', x = .error e' ∧ f e' = e := by
  cases x with
  | error e' => exact ⟨e', rfl, Except.error.inj h⟩
  | ok a => cases h

theorem exists_of_map_eq_ok {f : α → β} {x : Except ε α} {b : β} (h : x.map f = .ok b) :
    ∃ a, x = .ok a ∧ f a = b := by
  cases x with
  | error e => cases h
  | ok a => exact ⟨a, rfl, Except.ok.inj h⟩

/-- A step that succeeds for every item succeeds along the list. -/
theorem mapM_eq_ok_map {f : α → Except ε β} {g : α → β} {items : List α}
    (h : ∀ a ∈ items, f a = .ok (g a)) : items.mapM f = .ok (items.map g) := by
  induction items with
  | nil => rfl
  | cons a rest ih =>
    obtain ⟨hfirst, hrest⟩ := List.forall_mem_cons.1 h
    rw [List.mapM_cons, hfirst, ih hrest]
    rfl

/-- If a step succeeds along a list, it has done so item by item. -/
theorem forall₂_of_mapM_eq_ok {f : α → Except ε β} {items : List α} {results : List β}
    (h : items.mapM f = .ok results) : List.Forall₂ (fun a b => f a = .ok b) items results := by
  induction items generalizing results with
  | nil =>
    cases h
    exact .nil
  | cons a rest ih =>
    rw [List.mapM_cons] at h
    obtain ⟨first, hfirst, h⟩ := exists_of_bind_eq_ok h
    obtain ⟨others, hothers, h⟩ := exists_of_bind_eq_ok h
    cases h
    exact .cons hfirst (ih hothers)

theorem exists_of_mem_left {R : α → β → Prop} {items : List α} {results : List β}
    (h : List.Forall₂ R items results) {a : α} (ha : a ∈ items) : ∃ b ∈ results, R a b := by
  induction h with
  | nil => cases ha
  | @cons first result items results hfirst _ ih =>
    rcases List.mem_cons.1 ha with rfl | hlater
    · exact ⟨result, List.mem_cons_self, hfirst⟩
    · obtain ⟨b, hmem, hb⟩ := ih hlater
      exact ⟨b, List.mem_cons_of_mem _ hmem, hb⟩

theorem exists_of_mem_mapM {f : α → Except ε β} {items : List α} {results : List β}
    (h : items.mapM f = .ok results) {b : β} (hb : b ∈ results) : ∃ a ∈ items, f a = .ok b :=
  exists_of_mem_left (forall₂_of_mapM_eq_ok h).flip hb

theorem exists_result_of_mem {f : α → Except ε β} {items : List α} {results : List β}
    (h : items.mapM f = .ok results) {a : α} (ha : a ∈ items) : ∃ b ∈ results, f a = .ok b :=
  exists_of_mem_left (forall₂_of_mapM_eq_ok h) ha

/-- If a step fails along a list, it fails for one of the items. -/
theorem exists_of_mapM_eq_error {f : α → Except ε β} {items : List α} {e : ε}
    (h : items.mapM f = .error e) : ∃ a ∈ items, f a = .error e := by
  induction items with
  | nil => cases h
  | cons a rest ih =>
    rw [List.mapM_cons] at h
    cases hfirst : f a with
    | error e' =>
      rw [hfirst] at h
      cases h
      exact ⟨a, List.mem_cons_self, hfirst⟩
    | ok first =>
      cases hrest : rest.mapM f with
      | ok others =>
        rw [hfirst, hrest] at h
        cases h
      | error e' =>
        rw [hfirst, hrest] at h
        cases h
        obtain ⟨a', hmem, ha'⟩ := ih hrest
        exact ⟨a', List.mem_cons_of_mem _ hmem, ha'⟩

/-! ## Success -/

/-- A step has a result. -/
def Succeeds (x : Except ε α) : Prop := ∃ a, x = .ok a

theorem succeeds_ok (a : α) : Succeeds (.ok a : Except ε α) := ⟨a, rfl⟩

theorem not_succeeds_error (e : ε) : ¬Succeeds (.error e : Except ε α) := by
  rintro ⟨a, h⟩
  cases h

theorem succeeds_mapError_iff {f : ε → ε'} {x : Except ε α} :
    Succeeds (x.mapError f) ↔ Succeeds x := by
  unfold Succeeds
  simp only [mapError_eq_ok_iff]

theorem succeeds_map_iff {f : α → β} {x : Except ε α} : Succeeds (x.map f) ↔ Succeeds x := by
  constructor
  · rintro ⟨b, hb⟩
    obtain ⟨a, ha, -⟩ := exists_of_map_eq_ok hb
    exact ⟨a, ha⟩
  · rintro ⟨a, rfl⟩
    exact succeeds_ok (f a)

/-- Two steps succeed if the first one does and the second one does after it. -/
theorem succeeds_bind_iff {x : Except ε α} {f : α → Except ε β} :
    Succeeds (x >>= f) ↔ ∃ a, x = .ok a ∧ Succeeds (f a) := by
  constructor
  · rintro ⟨b, hb⟩
    obtain ⟨a, ha, hfa⟩ := exists_of_bind_eq_ok hb
    exact ⟨a, ha, b, hfa⟩
  · rintro ⟨a, rfl, hfa⟩
    exact hfa

/-- If the success of the second step does not depend on what the first one gives, each step has a
condition of its own. -/
theorem succeeds_bind_iff_and {x : Except ε α} {f : α → Except ε β} {A B : Prop}
    (hx : Succeeds x ↔ A) (hf : ∀ a, Succeeds (f a) ↔ B) : Succeeds (x >>= f) ↔ A ∧ B := by
  rw [succeeds_bind_iff, ← hx]
  constructor
  · rintro ⟨a, ha, hfa⟩
    exact ⟨⟨a, ha⟩, (hf a).1 hfa⟩
  · rintro ⟨⟨a, ha⟩, hB⟩
    exact ⟨a, ha, (hf a).2 hB⟩

theorem succeeds_bind_pure_iff {x : Except ε α} {f : α → β} :
    Succeeds (x >>= fun a => pure (f a)) ↔ Succeeds x := by
  have hlast : ∀ a, Succeeds (pure (f a) : Except ε β) ↔ True :=
    fun a => iff_true_intro (succeeds_ok (f a))
  rw [succeeds_bind_iff_and Iff.rfl hlast, and_true]

theorem succeeds_mapM_iff {f : α → Except ε β} {items : List α} :
    Succeeds (items.mapM f) ↔ ∀ a ∈ items, Succeeds (f a) := by
  induction items with
  | nil => exact ⟨fun _ a h => absurd h List.not_mem_nil, fun _ => succeeds_ok []⟩
  | cons a rest ih =>
    rw [List.mapM_cons, List.forall_mem_cons, ← ih]
    exact succeeds_bind_iff_and Iff.rfl fun first => succeeds_bind_pure_iff

theorem succeeds_forM_iff {f : α → Except ε PUnit} {items : List α} :
    Succeeds (items.forM f) ↔ ∀ a ∈ items, Succeeds (f a) := by
  induction items with
  | nil => exact ⟨fun _ a h => absurd h List.not_mem_nil, fun _ => ⟨⟨⟩, rfl⟩⟩
  | cons a rest ih =>
    rw [List.forall_mem_cons, ← ih]
    show Succeeds (f a >>= fun _ => rest.forM f) ↔ _
    exact succeeds_bind_iff_and Iff.rfl fun _ => Iff.rfl

end ExecutorHost
