import ExecutorHost.Proofs.Settings.Tree
import Mathlib.Logic.Relation

/-!
# References between references

A combiner refers to another one by a sub-settings control. Every error of making, combining and
splitting settings is met at the end of a trail of such references: either the next reference does
not resolve, or it leads back to an id that is on the way. Unfolding meets an error exactly if there
is such a trail.
-/

namespace ExecutorHost

open Relation

namespace References

variable {references : References} {way : List String}

/-- A combiner refers to another one by one of its sub-settings controls. -/
def RefersTo (references : References) (a b : Combiner) : Prop :=
  ∃ control ∈ a.controls, control.isSubSettings = true ∧ references.referenced? control = some b

/-- No control name stands twice, neither in a combiner nor in one that it refers to, directly or
by way of others. -/
def DistinctNames (references : References) (c : Combiner) : Prop :=
  ∀ b, ReflTransGen references.RefersTo c b → (b.controls.map (·.name)).Nodup

/-- Names are distinct if they are in the combiner and in every registered one. -/
theorem distinctNames_of_registered {c : Combiner} (hc : (c.controls.map (·.name)).Nodup)
    (h : ∀ b ∈ references.registered, (b.controls.map (·.name)).Nodup) :
    references.DistinctNames c := by
  intro b hb
  cases hb with
  | refl => exact hc
  | tail _ hlast =>
    obtain ⟨control, -, -, href⟩ := hlast
    exact h b (references.mem_registered href)

/-- What a combiner refers to has distinct names if the combiner has. -/
theorem DistinctNames.of_refersTo {a b : Combiner} (h : references.DistinctNames a)
    (hab : references.RefersTo a b) : references.DistinctNames b :=
  fun x hx => h x (ReflTransGen.head hab hx)

/-- A descent fails if the reference does not resolve or if it leads back onto the way. -/
theorem descend_error_cases {control : Control} {e : SettingsError}
    (h : references.descend way control = .error e) :
    (references.referenced? control = none ∧
      e = .subSettingsNotFound control.name control.target) ∨
    (∃ next, references.referenced? control = some next ∧ next.id ∈ way ∧
      e = .cycle (circle way next.id)) := by
  unfold descend resolve at h
  cases hr : references.referenced? control with
  | none =>
    simp only [hr, Except.error.injEq] at h
    exact .inl ⟨rfl, h.symm⟩
  | some next =>
    simp only [hr] at h
    split at h
    · rename_i hmem
      exact .inr ⟨next, rfl, hmem, (Except.error.inj h).symm⟩
    · cases h

/-! ## Getting stuck -/

/-- Following the references of some controls by a way meets an error. -/
inductive Stuck (references : References) : List String → List Control → SettingsError → Prop
  /-- The reference of a control cannot be followed. -/
  | here {way : List String} {controls : List Control} {control : Control} {e : SettingsError}
      (mem : control ∈ controls) (nested : control.isSubSettings = true)
      (fails : references.descend way control = .error e) : Stuck references way controls e
  /-- The error is met behind a reference that can be followed. -/
  | behind {way : List String} {controls : List Control} {control : Control} {next : Combiner}
      {e : SettingsError} (mem : control ∈ controls) (nested : control.isSubSettings = true)
      (leads : references.descend way control = .ok next)
      (stuck : Stuck references (way ++ [next.id]) next.controls e) :
      Stuck references way controls e

theorem Stuck.mono {controls more : List Control} {e : SettingsError}
    (h : Stuck references way controls e) (hsub : ∀ c ∈ controls, c ∈ more) :
    Stuck references way more e := by
  cases h with
  | here mem nested fails => exact .here (hsub _ mem) nested fails
  | behind mem nested leads stuck => exact .behind (hsub _ mem) nested leads stuck

theorem stuck_of_unfold {controls : List Control} {e : SettingsError}
    (h : SettingsTree.unfold references way controls = .error e) :
    Stuck references way controls e := by
  have hcons : ∀ c : Control, ∀ rest : List Control, ∀ x ∈ rest, x ∈ c :: rest :=
    fun _ _ _ hx => List.mem_cons_of_mem _ hx
  fun_induction SettingsTree.unfold references way controls with
  | case1 way => cases h
  | case2 way control rest hsub e' hd =>
    cases h
    exact .here List.mem_cons_self hsub hd
  | case3 way control rest hsub next hd inner ih =>
    cases hi : SettingsTree.unfold references (way ++ [next.id]) next.controls with
    | error e' =>
      rw [hi] at h
      cases h
      exact .behind List.mem_cons_self hsub hd (inner hi)
    | ok t =>
      cases hr : SettingsTree.unfold references way rest with
      | error e' =>
        rw [hi, hr] at h
        cases h
        exact (ih hr).mono (hcons control rest)
      | ok tail =>
        rw [hi, hr] at h
        cases h
  | case4 way control rest hsub ih =>
    cases hr : SettingsTree.unfold references way rest with
    | error e' =>
      rw [hr] at h
      cases h
      exact (ih hr).mono (hcons control rest)
    | ok tail =>
      rw [hr] at h
      cases h

/-- If some controls unfold, each of their references can be followed, and what it leads to unfolds
as well. -/
theorem unfold_of_mem {controls : List Control} {t : SettingsTree}
    (h : SettingsTree.unfold references way controls = .ok t) {control : Control}
    (hmem : control ∈ controls) (hsub : control.isSubSettings = true) :
    ∃ next inner, references.descend way control = .ok next ∧
      SettingsTree.unfold references (way ++ [next.id]) next.controls = .ok inner := by
  induction controls generalizing t with
  | nil => cases hmem
  | cons c rest ih =>
    rcases SettingsTree.unfold_cons_cases h with
      ⟨hplain, tail, ht, -⟩ | ⟨-, next, inner, tail, hd, hi, ht, -⟩
    · rcases List.mem_cons.1 hmem with rfl | hmem
      · exact absurd hsub hplain
      · exact ih ht hmem
    · rcases List.mem_cons.1 hmem with rfl | hmem
      · exact ⟨next, inner, hd, hi⟩
      · exact ih ht hmem

/-! ## Trails -/

/-- A way along which references lead from one combiner to another. -/
inductive Trail (references : References) (root : Combiner) : List String → Combiner → Prop
  /-- The way that only has the combiner that it starts at. -/
  | start : Trail references root [root.id] root
  /-- One more reference, to a combiner whose id is not on the way yet. -/
  | step {way : List String} {b next : Combiner} {control : Control}
      (trail : Trail references root way b) (mem : control ∈ b.controls)
      (nested : control.isSubSettings = true)
      (leads : references.descend way control = .ok next) :
      Trail references root (way ++ [next.id]) next

theorem Trail.refers {root b : Combiner} (h : Trail references root way b) :
    ReflTransGen references.RefersTo root b := by
  induction h with
  | start => exact .refl
  | step _ mem nested leads ih =>
    exact ih.tail ⟨_, mem, nested, (of_descend leads).1⟩

/-- An id on the way of a trail is that of a combiner that the trail passes. -/
theorem Trail.exists_of_mem {root b : Combiner} (h : Trail references root way b) {id : String}
    (hid : id ∈ way) :
    ∃ a, a.id = id ∧ ReflTransGen references.RefersTo root a ∧
      ReflTransGen references.RefersTo a b := by
  induction h with
  | start => exact ⟨root, (List.mem_singleton.1 hid).symm, .refl, .refl⟩
  | step trail mem nested leads ih =>
    rename_i next control
    rcases List.mem_append.1 hid with hid | hid
    · obtain ⟨a, ha, hra, hab⟩ := ih hid
      exact ⟨a, ha, hra, hab.tail ⟨_, mem, nested, (of_descend leads).1⟩⟩
    · exact ⟨next, (List.mem_singleton.1 hid).symm, (trail.step mem nested leads).refers, .refl⟩

/-- Controls get stuck at the end of a trail. -/
theorem Stuck.exists_trail {root c : Combiner} {e : SettingsError}
    (h : Stuck references way c.controls e) (trail : Trail references root way c) :
    ∃ way' b control, Trail references root way' b ∧ control ∈ b.controls ∧
      control.isSubSettings = true ∧ references.descend way' control = .error e := by
  generalize hc : c.controls = controls at h
  induction h generalizing c with
  | here mem nested fails => exact ⟨_, c, _, trail, hc ▸ mem, nested, fails⟩
  | behind mem nested leads stuck ih => exact ih (trail.step (hc ▸ mem) nested leads) rfl

/-- What is reached from controls that unfold unfolds as well, on a longer way. -/
theorem unfold_of_refers {a b : Combiner} (h : ReflTransGen references.RefersTo a b)
    {t : SettingsTree} (ht : SettingsTree.unfold references way a.controls = .ok t) :
    ∃ way' inner, way ⊆ way' ∧ SettingsTree.unfold references way' b.controls = .ok inner := by
  induction h using ReflTransGen.head_induction_on generalizing way t with
  | refl => exact ⟨way, t, List.Subset.refl way, ht⟩
  | head hstep _ ih =>
    obtain ⟨control, hmem, hsub, href⟩ := hstep
    obtain ⟨next, inner, hd, hi⟩ := unfold_of_mem ht hmem hsub
    cases (of_descend hd).1.symm.trans href
    obtain ⟨way', last, hway, hlast⟩ := ih hi
    exact ⟨way', last, fun id hid => hway (List.mem_append_left _ hid), hlast⟩

end References

namespace Combiner

variable {references : References} {c : Combiner} {e : SettingsError}

/-- A combiner whose references unfold does not refer to itself, not even by way of others. -/
theorem not_refers_self {t : SettingsTree} (h : c.tree references = .ok t) :
    ¬ TransGen references.RefersTo c c := by
  intro hloop
  obtain ⟨b, hcb, control, hmem, hsub, href⟩ := TransGen.tail'_iff.1 hloop
  obtain ⟨way, inner, hway, hinner⟩ := References.unfold_of_refers hcb h
  obtain ⟨next, -, hd, -⟩ := References.unfold_of_mem hinner hmem hsub
  obtain ⟨hnext, hnot⟩ := References.of_descend hd
  cases hnext.symm.trans href
  exact hnot (hway List.mem_cons_self)

end Combiner

end ExecutorHost
