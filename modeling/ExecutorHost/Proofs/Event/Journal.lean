import ExecutorHost.Event.Journal
import ExecutorHost.Proofs.Outcome

/-!
# What computations with a state return

Journals, counts of generated ids and registries are states of computations that may fail. A
computation of several steps succeeds if every step does, and each step then has the result and the
state of the one before; the first step that fails ends it. What every result of a computation
satisfies is shown along these steps, whatever is in the state, and so is which computations succeed
at all.
-/

namespace ExecutorHost

namespace Stateful

variable {σ ε α β : Type} {x : ExceptT ε (StateM σ) α} {f : α → ExceptT ε (StateM σ) β}
  {s s' : σ}

/-- After a first step that succeeds the second one is run. -/
theorem run_bind_of_ok {a : α} (h : x.run.run s = (.ok a, s')) :
    (x >>= f).run.run s = (f a).run.run s' := by
  show (ExceptT.bindCont f (x.run.run s).1).run (x.run.run s).2 = _
  rw [h]
  rfl

/-- A first step that fails is the end. -/
theorem run_bind_of_error {e : ε} (h : x.run.run s = (.error e, s')) :
    (x >>= f).run.run s = (.error e, s') := by
  show (ExceptT.bindCont f (x.run.run s).1).run (x.run.run s).2 = _
  rw [h]
  rfl

/-- What follows a first step depends on how that step ends and on nothing before. -/
theorem run_bind_congr {y : ExceptT ε (StateM σ) α} {t : σ} (h : x.run.run s = y.run.run t) :
    (x >>= f).run.run s = (y >>= f).run.run t := by
  cases hy : y.run.run t with
  | mk result between =>
    rw [hy] at h
    cases result with
    | ok a => rw [run_bind_of_ok h, run_bind_of_ok hy]
    | error e => rw [run_bind_of_error h, run_bind_of_error hy]

theorem of_run_bind_eq_ok {b : β} (h : (x >>= f).run.run s = (.ok b, s')) :
    ∃ a between, x.run.run s = (.ok a, between) ∧ (f a).run.run between = (.ok b, s') := by
  cases hx : x.run.run s with
  | mk result between =>
    cases result with
    | ok a =>
      rw [run_bind_of_ok hx] at h
      exact ⟨a, between, rfl, h⟩
    | error e =>
      rw [run_bind_of_error hx] at h
      cases h

theorem of_run_bind_eq_error {e : ε} (h : (x >>= f).run.run s = (.error e, s')) :
    x.run.run s = (.error e, s') ∨
      ∃ a between, x.run.run s = (.ok a, between) ∧ (f a).run.run between = (.error e, s') := by
  cases hx : x.run.run s with
  | mk result between =>
    cases result with
    | ok a =>
      rw [run_bind_of_ok hx] at h
      exact .inr ⟨a, between, rfl, h⟩
    | error e' =>
      rw [run_bind_of_error hx] at h
      cases h
      exact .inl rfl

theorem run_tryCatch_of_ok {a : α} {handle : ε → ExceptT ε (StateM σ) α}
    (h : x.run.run s = (.ok a, s')) : (tryCatch x handle).run.run s = (.ok a, s') := by
  have hrun : StateT.run x s = (.ok a, s') := h
  show (ExceptT.tryCatch x handle).run.run s = _
  rw [ExceptT.tryCatch, ExceptT.run_mk, StateT.run_bind, hrun]
  rfl

theorem run_tryCatch_of_error {e : ε} {handle : ε → ExceptT ε (StateM σ) α}
    (h : x.run.run s = (.error e, s')) :
    (tryCatch x handle).run.run s = (handle e).run.run s' := by
  have hrun : StateT.run x s = (.error e, s') := h
  show (ExceptT.tryCatch x handle).run.run s = _
  rw [ExceptT.tryCatch, ExceptT.run_mk, StateT.run_bind, hrun]
  rfl

theorem run_ofExcept (result : Except ε α) :
    (MonadExcept.ofExcept result : ExceptT ε (StateM σ) α).run.run s = (result, s) := by
  cases result <;> rfl

/-- A result is given with some state or other if it is given at all. -/
theorem exists_run_eq_iff {result : Except ε α} :
    (∃ s', x.run.run s = (result, s')) ↔ (x.run.run s).1 = result := by
  constructor
  · rintro ⟨s', h⟩
    rw [h]
  · rintro rfl
    exact ⟨_, rfl⟩

/-- If the state has no part in the result of the second step, it has none in what that step makes of
the result of the first. -/
theorem fst_run_bind {g : α → Except ε β} (h : ∀ a s, ((f a).run.run s).1 = g a) :
    ((x >>= f).run.run s).1 = (x.run.run s).1 >>= g := by
  cases hrun : x.run.run s with
  | mk result between =>
    cases result with
    | error e =>
      rw [run_bind_of_error hrun]
      rfl
    | ok a =>
      rw [run_bind_of_ok hrun]
      exact h a between

theorem fst_run_map (f : α → β) :
    ((x >>= fun a => pure (f a)).run.run s).1 = (x.run.run s).1.map f := by
  rw [fst_run_bind (g := fun a => .ok (f a)) fun _ _ => rfl]
  cases (x.run.run s).1 <;> rfl

/-- If the state has no part in the result of a step, it has none in that of the steps along a
list. -/
theorem fst_run_mapM {f : α → ExceptT ε (StateM σ) β} {g : α → Except ε β}
    (h : ∀ a s, ((f a).run.run s).1 = g a) (items : List α) (s : σ) :
    ((items.mapM f).run.run s).1 = items.mapM g := by
  induction items generalizing s with
  | nil => rfl
  | cons a rest ih =>
    rw [List.mapM_cons, List.mapM_cons, ← h a s]
    refine fst_run_bind fun b s => ?_
    rw [← ih s]
    exact fst_run_bind fun others s => rfl

theorem fst_run_foldlM {f : β → α → ExceptT ε (StateM σ) β} {g : β → α → Except ε β}
    (h : ∀ b a s, ((f b a).run.run s).1 = g b a) (items : List α) (b : β) (s : σ) :
    ((items.foldlM f b).run.run s).1 = items.foldlM g b := by
  induction items generalizing b s with
  | nil => rfl
  | cons a rest ih =>
    rw [List.foldlM_cons, List.foldlM_cons, ← h b a s]
    exact fst_run_bind ih

/-- A list with one more item behind it is run along as before, and then the last step is made. -/
theorem run_mapM_snoc {f : α → ExceptT ε (StateM σ) β} {items : List α} {results : List β} {a : α}
    {b : β} {s'' : σ} (h : (items.mapM f).run.run s = (.ok results, s'))
    (hlast : (f a).run.run s' = (.ok b, s'')) :
    ((items ++ [a]).mapM f).run.run s = (.ok (results ++ [b]), s'') := by
  rw [List.mapM_append, run_bind_of_ok h, List.mapM_cons, bind_assoc, run_bind_of_ok hlast]
  rfl

/-- What a computation that runs along a list returns has been returned by runs for its items, one
for each. -/
theorem forall₂_of_run_mapM_eq_ok {f : α → ExceptT ε (StateM σ) β} {items : List α}
    {results : List β} (h : (items.mapM f).run.run s = (.ok results, s')) :
    List.Forall₂ (fun a b => ∃ before after, (f a).run.run before = (.ok b, after))
      items results := by
  induction items generalizing results s with
  | nil =>
    rw [List.mapM_nil] at h
    cases h
    exact .nil
  | cons a rest ih =>
    rw [List.mapM_cons] at h
    obtain ⟨first, between, hfirst, h⟩ := of_run_bind_eq_ok h
    obtain ⟨others, last, hothers, h⟩ := of_run_bind_eq_ok h
    cases h
    exact .cons ⟨s, between, hfirst⟩ (ih hothers)

/-! ## Decisions -/

/-- Whatever the state, a computation succeeds if a condition holds, and else it fails with an error
of a kind. -/
def Decides (x : ExceptT ε (StateM σ) α) (condition : Prop) (kind : ε → Prop) : Prop :=
  ∀ s, (condition ∧ ∃ a s', x.run.run s = (.ok a, s')) ∨
    (¬condition ∧ ∃ e s', x.run.run s = (.error e, s') ∧ kind e)

section Decisions

variable {A B : Prop} {kind : ε → Prop}

theorem Decides.congr (hx : Decides x A kind) (h : A ↔ B) : Decides x B kind := by
  intro s
  rw [← h]
  exact hx s

theorem Decides.pure (a : α) : Decides (pure a : ExceptT ε (StateM σ) α) True kind :=
  fun s => .inl ⟨True.intro, a, s, rfl⟩

theorem Decides.ofExcept {result : Except ε α} (hsucceeds : Succeeds result ↔ A)
    (hkind : ∀ e, result = .error e → kind e) :
    Decides (MonadExcept.ofExcept result : ExceptT ε (StateM σ) α) A kind := by
  intro s
  rw [run_ofExcept]
  cases hresult : result with
  | ok a => exact .inl ⟨hsucceeds.1 ⟨a, hresult⟩, a, s, rfl⟩
  | error e =>
    refine .inr ⟨?_, e, s, rfl, hkind e hresult⟩
    rw [← hsucceeds, hresult]
    exact not_succeeds_error e

/-- The condition of the second step may rely on what the first one returns. -/
theorem Decides.bind (hx : Decides x A kind)
    (hf : ∀ s a s', x.run.run s = (.ok a, s') → Decides (f a) B kind) :
    Decides (x >>= f) (A ∧ B) kind := by
  intro s
  rcases hx s with ⟨hA, a, between, hrun⟩ | ⟨hA, e, between, hrun, he⟩
  · rw [run_bind_of_ok hrun]
    rcases hf s a between hrun between with ⟨hB, hrest⟩ | ⟨hB, hrest⟩
    · exact .inl ⟨⟨hA, hB⟩, hrest⟩
    · exact .inr ⟨fun h => hB h.2, hrest⟩
  · rw [run_bind_of_error hrun]
    exact .inr ⟨fun h => hA h.1, e, between, rfl, he⟩

/-- If each item has its condition, the steps along a list succeed if all items satisfy theirs. -/
theorem Decides.mapM {condition : α → Prop} (hf : ∀ a, Decides (f a) (condition a) kind)
    (items : List α) : Decides (items.mapM f) (∀ a ∈ items, condition a) kind := by
  induction items with
  | nil => exact (Decides.pure []).congr (by simp)
  | cons a rest ih =>
    rw [List.mapM_cons]
    have hrest : ∀ first, Decides (rest.mapM f >>= fun others => Pure.pure (first :: others))
        (∀ a ∈ rest, condition a) kind := by
      intro first
      apply (ih.bind fun _ others _ _ => .pure (first :: others)).congr
      rw [and_true]
    exact ((hf a).bind fun _ first _ _ => hrest first).congr List.forall_mem_cons.symm

/-- What a computation decides is told from the result of any of its runs. -/
theorem Decides.fst_run (hx : Decides x A kind) (s : σ) :
    (A ∧ ∃ a, (x.run.run s).1 = .ok a) ∨ (¬A ∧ ∃ e, (x.run.run s).1 = .error e ∧ kind e) := by
  rcases hx s with ⟨hA, a, s', hrun⟩ | ⟨hA, e, s', hrun, he⟩
  · exact .inl ⟨hA, a, exists_run_eq_iff.1 ⟨s', hrun⟩⟩
  · exact .inr ⟨hA, e, exists_run_eq_iff.1 ⟨s', hrun⟩, he⟩

end Decisions

end Stateful

namespace Logged

open Stateful

variable {ε ε' α β : Type}

/-! ## Runs -/

theorem run_report (event : Event) (journal : Journal) :
    (report event : Logged ε Unit).run.run journal =
      (.ok (), { journal with events := journal.events ++ [event] }) := rfl

theorem run_forM_report (events : List Event) (journal : Journal) :
    (events.forM report : Logged ε Unit).run.run journal =
      (.ok (), { journal with events := journal.events ++ events }) := by
  induction events generalizing journal with
  | nil =>
    rw [List.append_nil]
    rfl
  | cons event rest ih =>
    rw [List.forM_eq_forM, List.forM_cons, run_bind_of_ok (run_report event journal),
      ← List.forM_eq_forM, ih, List.append_assoc, List.singleton_append]

theorem run_generating (action : Generating ε α) (journal : Journal) :
    (generating action).run.run journal =
      ((action.run.run journal.generated).1,
        { journal with generated := (action.run.run journal.generated).2 }) := by
  have hget : (get : Logged ε Journal).run.run journal = (.ok journal, journal) := rfl
  unfold generating
  rw [run_bind_of_ok hget]
  cases action.run.run journal.generated with
  | mk result generated => cases result <;> rfl

theorem run_mapError (f : ε → ε') (x : Logged ε α) (journal : Journal) :
    (x.mapError f).run.run journal =
      ((x.run.run journal).1.mapError f, (x.run.run journal).2) := by
  have hattempt : (x.attempt : Logged ε' (Except ε α)).run.run journal =
      (.ok (x.run.run journal).1, (x.run.run journal).2) := rfl
  rw [Logged.mapError, run_bind_of_ok hattempt]
  cases (x.run.run journal).1 <;> rfl

theorem run_mapError_of_ok {x : Logged ε α} {journal journal' : Journal} {a : α}
    (h : x.run.run journal = (.ok a, journal')) (f : ε → ε') :
    (x.mapError f).run.run journal = (.ok a, journal') := by
  rw [run_mapError, h]
  rfl

theorem run_mapError_of_error {x : Logged ε α} {journal journal' : Journal} {e : ε}
    (h : x.run.run journal = (.error e, journal')) (f : ε → ε') :
    (x.mapError f).run.run journal = (.error (f e), journal') := by
  rw [run_mapError, h]
  rfl

theorem exists_of_run_mapError_eq_error {f : ε → ε'} {x : Logged ε α} {journal journal' : Journal}
    {e : ε'} (h : (x.mapError f).run.run journal = (.error e, journal')) :
    ∃ e', x.run.run journal = (.error e', journal') ∧ f e' = e := by
  rw [run_mapError] at h
  obtain ⟨hresult, hjournal⟩ := Prod.mk.inj h
  obtain ⟨e', he, hf⟩ := exists_of_mapError_eq_error hresult
  exact ⟨e', Prod.ext he hjournal, hf⟩

theorem run_reportingError_of_ok {event : ε → Event} {x : Logged ε α} {journal journal' : Journal}
    {a : α} (h : x.run.run journal = (.ok a, journal')) :
    (reportingError event x).run.run journal = (.ok a, journal') :=
  run_tryCatch_of_ok h

theorem run_reportingError_of_error {event : ε → Event} {x : Logged ε α}
    {journal journal' : Journal} {e : ε} (h : x.run.run journal = (.error e, journal')) :
    (reportingError event x).run.run journal =
      (.error e, { journal' with events := journal'.events ++ [event e] }) := by
  rw [reportingError, run_tryCatch_of_error h, run_bind_of_ok (run_report _ _)]
  rfl

/-! ## What is returned -/

/-- Whatever a computation returns has a property. -/
def Returns (action : Logged ε α) (P : α → Prop) : Prop :=
  ∀ journal value journal', action.run.run journal = (.ok value, journal') → P value

variable {P : α → Prop} {Q : β → Prop}

theorem Returns.pure {a : α} (h : P a) : Returns (pure a : Logged ε α) P := by
  intro journal value journal' hrun
  cases hrun
  exact h

theorem Returns.trivial (action : Logged ε α) : Returns action fun _ => True :=
  fun _ _ _ _ => True.intro

/-- The second step may rely on what the first one returns. -/
theorem Returns.bind {x : Logged ε α} {f : α → Logged ε β} (hx : Returns x P)
    (hf : ∀ a, P a → Returns (f a) Q) : Returns (x >>= f) Q := by
  intro journal value journal' hrun
  obtain ⟨a, between, ha, hb⟩ := of_run_bind_eq_ok hrun
  exact hf a (hx journal a between ha) between value journal' hb

theorem Returns.map {x : Logged ε α} {f : α → β} (hx : Returns x P) (hf : ∀ a, P a → Q (f a)) :
    Returns (f <$> x) Q := by
  rw [map_eq_pure_bind]
  exact hx.bind fun a ha => .pure (hf a ha)

theorem Returns.ofExcept {result : Except ε α} (h : ∀ a, result = .ok a → P a) :
    Returns (MonadExcept.ofExcept result : Logged ε α) P := by
  cases result with
  | error e =>
    intro journal value journal' hrun
    cases hrun
  | ok a => exact .pure (h a rfl)

theorem Returns.throw (e : ε) : Returns (throw e : Logged ε α) P := by
  intro journal value journal' hrun
  cases hrun

/-- Another type of errors does not change what is returned. -/
theorem Returns.mapError {x : Logged ε α} (hx : Returns x P) (f : ε → ε') :
    Returns (x.mapError f) P := by
  intro journal value journal' hrun
  rw [run_mapError] at hrun
  obtain ⟨hresult, -⟩ := Prod.mk.inj hrun
  exact hx journal value _ (Prod.ext (mapError_eq_ok_iff.1 hresult) rfl)

/-- A property that every step keeps holds of what the last step returns. -/
theorem Returns.foldlM {f : β → α → Logged ε β} {items : List α} {b : β} (hb : Q b)
    (hf : ∀ b a, Q b → Returns (f b a) Q) : Returns (items.foldlM f b) Q := by
  induction items generalizing b with
  | nil => exact .pure hb
  | cons a rest ih =>
    rw [List.foldlM_cons]
    exact (hf b a hb).bind fun b' hb' => ih hb'

/-! ## How computations fail -/

/-- Whatever a computation fails with is of a kind. -/
def FailsOnly (action : Logged ε α) (kind : ε → Prop) : Prop :=
  ∀ journal e journal', action.run.run journal = (.error e, journal') → kind e

section Failures

variable {kind : ε → Prop} {x : Logged ε α}

theorem FailsOnly.pure (a : α) : FailsOnly (pure a : Logged ε α) kind := by
  intro journal e journal' hrun
  cases hrun

theorem FailsOnly.throw {e : ε} (h : kind e) : FailsOnly (throw e : Logged ε α) kind := by
  intro journal e' journal' hrun
  cases hrun
  exact h

theorem FailsOnly.report (event : Event) : FailsOnly (report event : Logged ε Unit) kind := by
  intro journal e journal' hrun
  cases hrun

theorem FailsOnly.ofExcept {result : Except ε α} (h : ∀ e, result = .error e → kind e) :
    FailsOnly (MonadExcept.ofExcept result : Logged ε α) kind := by
  intro journal e journal' hrun
  rw [run_ofExcept] at hrun
  exact h e (Prod.mk.inj hrun).1

theorem FailsOnly.bind {f : α → Logged ε β} (hx : FailsOnly x kind)
    (hf : ∀ a, FailsOnly (f a) kind) : FailsOnly (x >>= f) kind := by
  intro journal e journal' hrun
  rcases of_run_bind_eq_error hrun with hfirst | ⟨a, between, -, hrest⟩
  · exact hx journal e journal' hfirst
  · exact hf a between e journal' hrest

theorem FailsOnly.ite {c : Prop} [Decidable c] {y : Logged ε α} (hx : FailsOnly x kind)
    (hy : FailsOnly y kind) : FailsOnly (if c then x else y) kind := by
  split
  · exact hx
  · exact hy

theorem FailsOnly.reportingError (event : ε → Event) (hx : FailsOnly x kind) :
    FailsOnly (reportingError event x) kind := by
  intro journal e journal' hrun
  cases hfirst : x.run.run journal with
  | mk result between =>
    cases result with
    | ok a =>
      rw [run_reportingError_of_ok hfirst] at hrun
      cases hrun
    | error e' =>
      rw [run_reportingError_of_error hfirst] at hrun
      cases hrun
      exact hx journal _ between hfirst

/-- What a computation that generates ids fails with is of the kind that it decides on. -/
theorem FailsOnly.generating {action : Generating ε α} {condition : Prop}
    (h : Decides action condition kind) : FailsOnly (generating action) kind := by
  intro journal e journal' hrun
  rw [run_generating] at hrun
  obtain ⟨hresult, -⟩ := Prod.mk.inj hrun
  rcases h.fst_run journal.generated with ⟨-, a, hok⟩ | ⟨-, e', herror, he'⟩
  · cases hok.symm.trans hresult
  · cases herror.symm.trans hresult
    exact he'

theorem FailsOnly.mono {kind' : ε → Prop} (hx : FailsOnly x kind) (h : ∀ e, kind e → kind' e) :
    FailsOnly x kind' :=
  fun journal e journal' hrun => h e (hx journal e journal' hrun)

theorem FailsOnly.mapM {f : α → Logged ε β} (hf : ∀ a, FailsOnly (f a) kind) (items : List α) :
    FailsOnly (items.mapM f) kind := by
  induction items with
  | nil => exact .pure []
  | cons a rest ih =>
    rw [List.mapM_cons]
    exact (hf a).bind fun _ => ih.bind fun _ => .pure _

theorem FailsOnly.forIn {f : α → β → Logged ε (ForInStep β)} (hf : ∀ a b, FailsOnly (f a b) kind)
    (items : List α) (b : β) : FailsOnly (forIn items b f) kind := by
  induction items generalizing b with
  | nil => exact .pure b
  | cons a rest ih =>
    rw [List.forIn_cons]
    refine (hf a b).bind fun step => ?_
    cases step with
    | done b => exact .pure b
    | yield b => exact ih b

end Failures

end Logged

end ExecutorHost
