import ExecutorHost.Proofs.Event.Journal

/-!
# Journals that only grow

A computation that reports puts its events behind those that are in the journal, and what has been
reported before has no part in what it does. So two runs that begin with as many generated ids end
alike, whatever has been reported before either of them.
-/

namespace ExecutorHost

/-- A journal with earlier events in front. -/
def Journal.behind (earlier : List Event) (journal : Journal) : Journal :=
  { journal with events := earlier ++ journal.events }

namespace Logged

open Stateful

variable {ε ε' α β : Type} {x : Logged ε α} {earlier : List Event}

/-- Earlier events stay in front of those that a computation reports, and change nothing else. -/
def Appends (action : Logged ε α) : Prop :=
  ∀ earlier journal, action.run.run (journal.behind earlier) =
    ((action.run.run journal).1, (action.run.run journal).2.behind earlier)

theorem Appends.run_eq (h : Appends x) {journal journal' : Journal} {result : Except ε α}
    (hrun : x.run.run journal = (result, journal')) (earlier : List Event) :
    x.run.run (journal.behind earlier) = (result, journal'.behind earlier) := by
  rw [h, hrun]

/-- How a computation ends and how many ids it generates do not depend on what has been reported
before. -/
theorem Appends.exists_run_eq (h : Appends x) {journal journal' after : Journal}
    {result : Except ε α} (hrun : x.run.run journal = (result, after))
    (hgenerated : journal'.generated = journal.generated) :
    ∃ after', after'.generated = after.generated ∧ x.run.run journal' = (result, after') := by
  have hbehind (journal : Journal) :
      journal = Journal.behind journal.events ⟨journal.generated, []⟩ := by
    simp [Journal.behind]
  have hfresh := h journal.events ⟨journal.generated, []⟩
  rw [← hbehind, hrun] at hfresh
  obtain ⟨hresult, hafter⟩ := Prod.mk.inj hfresh
  have hother := h journal'.events ⟨journal'.generated, []⟩
  rw [← hbehind, hgenerated, ← hresult] at hother
  refine ⟨_, ?_, hother⟩
  rw [hafter]
  rfl

theorem Appends.fst_run_eq (h : Appends x) {journal journal' : Journal}
    (hgenerated : journal.generated = journal'.generated) :
    (x.run.run journal).1 = (x.run.run journal').1 := by
  obtain ⟨after, -, hrun⟩ := h.exists_run_eq (Prod.eta (x.run.run journal')).symm hgenerated
  rw [hrun]

/-! ## Steps -/

theorem Appends.pure (a : α) : Appends (pure a : Logged ε α) := fun _ _ => rfl

theorem Appends.throw (e : ε) : Appends (throw e : Logged ε α) := fun _ _ => rfl

theorem Appends.ofExcept (result : Except ε α) :
    Appends (MonadExcept.ofExcept result : Logged ε α) := by
  intro earlier journal
  rw [run_ofExcept, run_ofExcept]

theorem Appends.report (event : Event) : Appends (report event : Logged ε Unit) := by
  intro earlier journal
  rw [run_report, run_report, Journal.behind, Journal.behind, List.append_assoc]

theorem Appends.generating (action : Generating ε α) : Appends (generating action) := by
  intro earlier journal
  rw [run_generating, run_generating]
  rfl

theorem Appends.bind {f : α → Logged ε β} (hx : Appends x) (hf : ∀ a, Appends (f a)) :
    Appends (x >>= f) := by
  intro earlier journal
  cases hrun : x.run.run journal with
  | mk result between =>
    have hearlier := hx.run_eq hrun earlier
    cases result with
    | ok a =>
      rw [run_bind_of_ok hrun, run_bind_of_ok hearlier]
      exact hf a earlier between
    | error e => rw [run_bind_of_error hrun, run_bind_of_error hearlier]

theorem Appends.map (f : α → β) (hx : Appends x) : Appends (f <$> x) := by
  rw [map_eq_pure_bind]
  exact hx.bind fun a => .pure (f a)

theorem Appends.ite {c : Prop} [Decidable c] {y : Logged ε α} (hx : Appends x) (hy : Appends y) :
    Appends (if c then x else y) := by
  split
  · exact hx
  · exact hy

theorem Appends.mapError (f : ε → ε') (hx : Appends x) : Appends (x.mapError f) := by
  intro earlier journal
  rw [run_mapError, run_mapError, hx]

theorem Appends.reportingError (event : ε → Event) (hx : Appends x) :
    Appends (reportingError event x) := by
  intro earlier journal
  cases hrun : x.run.run journal with
  | mk result between =>
    have hearlier := hx.run_eq hrun earlier
    cases result with
    | ok a => rw [run_reportingError_of_ok hrun, run_reportingError_of_ok hearlier]
    | error e =>
      rw [run_reportingError_of_error hrun, run_reportingError_of_error hearlier,
        Journal.behind, Journal.behind, List.append_assoc]

/-! ## Loops -/

theorem Appends.foldlM {f : β → α → Logged ε β} (hf : ∀ b a, Appends (f b a)) (items : List α)
    (b : β) : Appends (items.foldlM f b) := by
  induction items generalizing b with
  | nil => exact .pure b
  | cons a rest ih =>
    rw [List.foldlM_cons]
    exact (hf b a).bind ih

theorem Appends.mapM {f : α → Logged ε β} (hf : ∀ a, Appends (f a)) (items : List α) :
    Appends (items.mapM f) := by
  induction items with
  | nil => exact .pure []
  | cons a rest ih =>
    rw [List.mapM_cons]
    exact (hf a).bind fun _ => ih.bind fun _ => .pure _

theorem Appends.forM {f : α → Logged ε PUnit} (hf : ∀ a, Appends (f a)) (items : List α) :
    Appends (items.forM f) := by
  induction items with
  | nil => exact .pure _
  | cons a rest ih =>
    rw [List.forM_eq_forM, List.forM_cons, ← List.forM_eq_forM]
    exact (hf a).bind fun _ => ih

theorem Appends.forIn {f : α → β → Logged ε (ForInStep β)} (hf : ∀ a b, Appends (f a b))
    (items : List α) (b : β) : Appends (forIn items b f) := by
  induction items generalizing b with
  | nil => exact .pure b
  | cons a rest ih =>
    rw [List.forIn_cons]
    refine (hf a b).bind fun step => ?_
    cases step with
    | done b => exact .pure b
    | yield b => exact ih b

end Logged

end ExecutorHost
