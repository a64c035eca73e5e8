import ExecutorHost.Proofs.Settings.Registration
import ExecutorHost.Proofs.Settings.Table
import ExecutorHost.Settings.Split

/-!
# Histories

Workers are registered and removed one call at a time, and a hash table may be iterated in any order
afterwards. Neither is seen in what is asked later: whatever history ends in the same mapping from
ids to workers gives the same lists and the same first workers, and so the same settings, the same
results of searches and the same registrations of combiners.
-/

namespace ExecutorHost

namespace WorkerTable

/-! ## Registering combiners -/

/-- The calls that register a combiner for each settings specification. -/
def registrations (specifications : WorkerTable Specification) :
    Except SettingsError (List (WorkerCall Combiner)) :=
  (specifications.sorted.filter (·.2.isSettings)).mapM fun e =>
    (Combiner.ofSpecification e.2).map (WorkerCall.register e.1)

/-- Registrations can be made, for exactly the settings specifications have combiners. -/
theorem mapM_register (entries : List (String × Specification)) :
    ((entries.filter (·.2.isSettings)).mapM fun e =>
        (Combiner.ofSpecification e.2).map (WorkerCall.register e.1)) =
      .ok ((entries.filterMap fun e =>
        (Combiner.ofSpecification e.2).toOption.map (e.1, ·)).map fun e => .register e.1 e.2) := by
  induction entries with
  | nil => rfl
  | cons e rest ih =>
    cases hmade : Combiner.ofSpecification e.2 with
    | ok c =>
      have hsettings : e.2.isSettings = true := Combiner.exists_ofSpecification_iff.1 ⟨c, hmade⟩
      rw [List.filter_cons, if_pos hsettings, List.mapM_cons, ih, List.filterMap_cons, hmade]
      rfl
    | error fault =>
      have hplain : ¬e.2.isSettings = true := by
        intro hsettings
        obtain ⟨c, hc⟩ := Combiner.exists_ofSpecification_iff.2 hsettings
        cases hc.symm.trans hmade
      rw [List.filter_cons, if_neg hplain, ih, List.filterMap_cons, hmade]
      rfl

theorem registrations_eq (specifications : WorkerTable Specification) :
    specifications.registrations =
      .ok ((Combiner.allOf specifications.loader).map fun e => .register e.1 e.2) := by
  rw [registrations, mapM_register, Combiner.allOf_eq]
  rfl

/-- Workers registered one after another have the outcome of the calls that register them. -/
theorem get?_foldl_insert {α : Type} (workers : List (String × α)) (m : Loader α) (id : String) :
    (workers.foldl (fun m e => m.insert e.1 e.2) m).get? id =
      WorkerCall.outcomeOf (workers.map fun e => .register e.1 e.2) id (m.get? id) := by
  induction workers generalizing m with
  | nil => rfl
  | cons e rest ih =>
    rw [List.foldl_cons, ih]
    show _ = WorkerCall.outcomeOf _ id (WorkerCall.outcome id (m.get? id) (.register e.1 e.2))
    rw [WorkerCall.outcome, IdMap.get?_insert]

/-- Registering the combiners of all settings specifications fills the loader as it fills the
table. -/
theorem run_registerAll {ε : Type} (specifications : WorkerTable Specification)
    {combiners after : WorkerTable Combiner} {calls : List (WorkerCall Combiner)}
    (hcalls : specifications.registrations = .ok calls) (hafter : Steps combiners calls after)
    (journal : Journal) :
    ∃ journal', (Combiner.registerAll specifications.loader combiners.loader :
        Logged ε (Combiners × Nat)).run.run journal =
      (.ok (after.loader, calls.length), journal') := by
  rw [registrations_eq] at hcalls
  cases hcalls
  obtain ⟨journal', hrun⟩ := Combiner.run_registerEach (ε := ε) (fun c => c) combiners.loader
    (Combiner.allOf specifications.loader) journal
  have hloader : after.loader = (Combiner.allOf specifications.loader).foldl
      (fun m e => m.insert e.1 e.2) combiners.loader := by
    apply loader_eq
    intro id
    rw [get?_steps hafter, get?_foldl_insert, get?_loader]
  refine ⟨journal', ?_⟩
  rw [Combiner.registerAll, Stateful.run_bind_of_ok hrun, hloader, List.length_map]
  rfl

/-! ## Answers -/

/-- Settings operations and searches that look up in two tables give what they give on two
loaders. -/
structure SettingsLike (specifications : WorkerTable Specification)
    (combiners : WorkerTable Combiner) (s : Loader Specification) (c : Combiners) : Prop where
  resolve : ∀ control, combiners.references.resolve control = c.resolve control
  create : ∀ (root : Combiner) parameters,
    root.create combiners.references parameters = root.create c parameters
  combine : ∀ (root : Combiner) parameters document,
    root.combine combiners.references parameters document = root.combine c parameters document
  split : ∀ (root : Combiner) parameters document,
    root.split combiners.references parameters document = root.split c parameters document
  process : ∀ candidates,
    SettingsSearch.process specifications.catalogue candidates =
      SettingsSearch.process s candidates
  probableIds :
    SettingsSearch.probableIds specifications.catalogue = SettingsSearch.probableIds s
  registerAll : ∃ calls, specifications.registrations = .ok calls ∧
    (∃ after, Steps combiners calls after) ∧
    ∀ after, Steps combiners calls after → ∀ (ε : Type) (journal : Journal), ∃ journal',
      (Combiner.registerAll s c : Logged ε (Combiners × Nat)).run.run journal =
        (.ok (after.loader, calls.length), journal')

theorem settingsLike_loader (specifications : WorkerTable Specification)
    (combiners : WorkerTable Combiner) :
    specifications.SettingsLike combiners specifications.loader combiners.loader where
  resolve _ := by rw [references_eq, Combiners.resolve]
  create _ _ := by rw [references_eq]
  combine _ _ _ := by rw [references_eq]
  split _ _ _ := by rw [references_eq]
  process _ := by rw [catalogue_eq]
  probableIds := by rw [catalogue_eq]
  registerAll := ⟨_, specifications.registrations_eq, combiners.exists_steps _,
    fun _ hafter _ => specifications.run_registerAll specifications.registrations_eq hafter⟩

/-- Whatever two histories end in one mapping, and in whatever order the tables are iterated that
they lead to: the ids, the entries and the first worker with a property are those of one loader, in
ascending order and of the least id. So are the results of settings operations on combiners, and of
searches and registrations of combiners on specifications. -/
theorem answers_independent_of_history :
    (∀ {α : Type} {calls others : List (WorkerCall α)},
      (∀ id, WorkerCall.mapping calls id = WorkerCall.mapping others id) →
      ∃ m : Loader α, WorkerCall.LeadsTo calls m ∧ WorkerCall.LeadsTo others m ∧
        m.ids.Pairwise (· < ·) ∧
        (∀ p id worker, m.find? p = some (id, worker) ↔
          m.get? id = some worker ∧ p worker = true ∧
            ∀ other w, m.get? other = some w → p w = true → id ≤ other) ∧
        ∀ t, Steps empty calls t ∨ Steps empty others t → t.AnswersLike m) ∧
    ∀ {specified specified' : List (WorkerCall Specification)}
      {combined combined' : List (WorkerCall Combiner)},
      (∀ id, WorkerCall.mapping specified id = WorkerCall.mapping specified' id) →
      (∀ id, WorkerCall.mapping combined id = WorkerCall.mapping combined' id) →
      ∃ (s : Loader Specification) (c : Combiners),
        (WorkerCall.LeadsTo specified s ∧ WorkerCall.LeadsTo specified' s) ∧
        (WorkerCall.LeadsTo combined c ∧ WorkerCall.LeadsTo combined' c) ∧
        ∀ specifications combiners,
          Steps empty specified specifications ∨ Steps empty specified' specifications →
          Steps empty combined combiners ∨ Steps empty combined' combiners →
          specifications.SettingsLike combiners s c := by
  constructor
  · intro α calls others h
    obtain ⟨m, hcalls, hothers, htables⟩ := exists_loader h
    refine ⟨m, hcalls, hothers, List.pairwise_map.2 m.sorted, fun p id worker =>
      IdMap.find?_eq_some_iff, fun t ht => ?_⟩
    rw [← htables t ht]
    exact t.answersLike_loader
  · intro specified specified' combined combined' hs hc
    obtain ⟨s, hspecified, hspecified', hspecifications⟩ := exists_loader hs
    obtain ⟨c, hcombined, hcombined', hcombiners⟩ := exists_loader hc
    refine ⟨s, c, ⟨hspecified, hspecified'⟩, ⟨hcombined, hcombined'⟩, ?_⟩
    intro specifications combiners hleft hright
    rw [← hspecifications specifications hleft, ← hcombiners combiners hright]
    exact specifications.settingsLike_loader combiners

/-! ## Two histories -/

/-- Two workers registered, the later id first. -/
def straight {α : Type} (a b : α) : List (WorkerCall α) := [.register "b" b, .register "a" a]

/-- The same workers after detours. -/
def roundabout {α : Type} (a b : α) : List (WorkerCall α) :=
  [.register "a" b, .register "b" b, .remove "a", .register "a" a]

theorem mapping_roundabout {α : Type} (a b : α) (id : String) :
    WorkerCall.mapping (straight a b) id = WorkerCall.mapping (roundabout a b) id := by
  by_cases ha : "a" = id
  · subst ha
    rfl
  · by_cases hb : "b" = id
    · subst hb
      rfl
    · simp [WorkerCall.mapping, WorkerCall.outcomeOf, straight, roundabout, WorkerCall.outcome, ha,
        hb]

/-- A table that is iterated in the order of ids. -/
def ascending {α : Type} (a b : α) : WorkerTable α := ⟨[("a", a), ("b", b)], by simp⟩

/-- The table with the same workers that is iterated the other way. -/
def descending {α : Type} (a b : α) : WorkerTable α := ⟨[("b", b), ("a", a)], by simp⟩

/-- A table of one worker. -/
def single {α : Type} (id : String) (worker : α) : WorkerTable α := ⟨[(id, worker)], by simp⟩

theorem steps_straight {α : Type} (a b : α) :
    Steps empty (straight a b) (descending a b) := by
  have hb : Step empty (.register "b" b) (single "b" b) := .register (.refl _)
  have ha : Step (single "b" b) (.register "a" a) (descending a b) := .register (.swap _ _ _)
  exact .cons hb (.cons ha (.nil (.refl _)))

theorem steps_roundabout {α : Type} (a b : α) :
    Steps empty (roundabout a b) (ascending a b) := by
  have hfirst : Step empty (.register "a" b) (single "a" b) := .register (.refl _)
  have hb : Step (single "a" b) (.register "b" b) (ascending b b) := .register (.swap _ _ _)
  have hremoved : Step (ascending b b) (.remove "a") (single "b" b) := .remove (.refl _)
  have ha : Step (single "b" b) (.register "a" a) (ascending a b) := .register (.refl _)
  exact .cons hfirst (.cons hb (.cons hremoved (.cons ha (.nil (.refl _)))))

/-- Settings of one name for two ids. -/
def named (id : String) : Specification := (Specification.new id id).withSettingsRole "blur"

/-- Their combiner. -/
def combinerOf (id : String) : Combiner := ⟨named id, "blur", rfl⟩

theorem answers_of_detours :
    ((∀ id, WorkerCall.mapping (straight (named "a") (named "b")) id =
        WorkerCall.mapping (roundabout (named "a") (named "b")) id) ∧
      (∀ id, WorkerCall.mapping (straight (combinerOf "a") (combinerOf "b")) id =
        WorkerCall.mapping (roundabout (combinerOf "a") (combinerOf "b")) id)) ∧
    (descending (named "a") (named "b")).find? (·.isSettings) = some ("a", named "a") ∧
    (ascending (named "a") (named "b")).find? (·.isSettings) = some ("a", named "a") ∧
    (∀ control, (descending (combinerOf "a") (combinerOf "b")).references.resolve control =
      (ascending (combinerOf "a") (combinerOf "b")).references.resolve control) ∧
    ∀ candidates,
      SettingsSearch.process (descending (named "a") (named "b")).catalogue candidates =
        SettingsSearch.process (ascending (named "a") (named "b")).catalogue candidates := by
  have hspecified := mapping_roundabout (named "a") (named "b")
  have hcombined := mapping_roundabout (combinerOf "a") (combinerOf "b")
  obtain ⟨m, -, -, -, hleast, hanswers⟩ := answers_independent_of_history.1 hspecified
  obtain ⟨s, c, -, -, hlike⟩ := answers_independent_of_history.2 hspecified hcombined
  have hdescending := hlike _ _ (.inl (steps_straight (named "a") (named "b")))
    (.inl (steps_straight (combinerOf "a") (combinerOf "b")))
  have hascending := hlike _ _ (.inr (steps_roundabout (named "a") (named "b")))
    (.inr (steps_roundabout (combinerOf "a") (combinerOf "b")))
  have hstraight := hanswers _ (.inl (steps_straight (named "a") (named "b")))
  have hroundabout := hanswers _ (.inr (steps_roundabout (named "a") (named "b")))
  have hfirst : m.find? (·.isSettings) = some ("a", named "a") := by
    refine (hleast _ _ _).2 ⟨(hstraight.get? "a").symm, rfl, ?_⟩
    intro other w hother _
    rw [← hstraight.get?, ← mem_entries_iff] at hother
    rcases List.mem_pair.1 hother with h | h <;> cases h <;> decide
  refine ⟨⟨hspecified, hcombined⟩, (hstraight.find? _).trans hfirst,
    (hroundabout.find? _).trans hfirst, fun control => ?_, fun candidates => ?_⟩
  · rw [hdescending.resolve, hascending.resolve]
  · rw [hdescending.process, hascending.process]

end WorkerTable

end ExecutorHost
