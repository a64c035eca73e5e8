import ExecutorHost.Proofs.Event.Journal
import ExecutorHost.Proofs.IdMap
import ExecutorHost.Worker.Loader

/-!
# Hash tables of workers

The workers of a loader are kept in a hash table. It finds the worker of an id, but it is iterated in
an order of its own, of which nothing is known and which any call may change. Lists of what is in the
table, and the search for a first worker with a property, sort by id before they answer. So a table
answers like the map from ids that the calls make, and this map only depends on the last call about
each id.
-/

namespace ExecutorHost

variable {α : Type}

/-! ## Calls -/

/-- A call that changes which workers are registered. -/
inductive WorkerCall (α : Type)
  | register (id : String) (worker : α)
  | remove (id : String)

namespace WorkerCall

/-- The worker of an id after a call, given the one before. -/
def outcome (id : String) (before : Option α) : WorkerCall α → Option α
  | register other worker => if other = id then some worker else before
  | remove other => if other = id then none else before

/-- The worker of an id after calls, given the one before. -/
def outcomeOf (calls : List (WorkerCall α)) (id : String) (before : Option α) : Option α :=
  calls.foldl (fun worker call => call.outcome id worker) before

/-- The mapping from ids to workers that a history ends in. -/
def mapping (calls : List (WorkerCall α)) (id : String) : Option α := outcomeOf calls id none

/-- A call made to a loader. -/
def run {ε : Type} (loader : Loader α) : WorkerCall α → Logged ε (Loader α)
  | register id worker => loader.register id worker
  | remove id => do
    let (left, _) ← loader.remove id
    return left

/-- Calls made to a loader one after another. -/
def runAll {ε : Type} (loader : Loader α) (calls : List (WorkerCall α)) : Logged ε (Loader α) :=
  calls.foldlM run loader

/-- A history leads to a loader: that is what the calls return, made to an empty loader. -/
def LeadsTo (calls : List (WorkerCall α)) (m : Loader α) : Prop :=
  ∀ (ε : Type) (journal : Journal), ∃ journal',
    (runAll .empty calls : Logged ε (Loader α)).run.run journal = (.ok m, journal')

theorem run_run {ε : Type} (call : WorkerCall α) (loader : Loader α) (journal : Journal) :
    ∃ after journal', (call.run loader : Logged ε (Loader α)).run.run journal =
        (.ok after, journal') ∧
      ∀ id, after.get? id = call.outcome id (loader.get? id) := by
  cases call with
  | register other worker =>
    refine ⟨loader.insert other worker, _, rfl, fun id => ?_⟩
    rw [IdMap.get?_insert, outcome]
  | remove other =>
    cases hget : loader.get? other with
    | none =>
      refine ⟨loader, journal, ?_, fun id => ?_⟩
      · simp only [run, Loader.remove, hget]
        rfl
      · by_cases h : other = id
        · subst h
          rw [hget, outcome, if_pos rfl]
        · rw [outcome, if_neg h]
    | some worker =>
      refine ⟨loader.erase other,
        { journal with events := journal.events ++ [.workerRemoved other] }, ?_, fun id => ?_⟩
      · simp only [run, Loader.remove, hget]
        rfl
      · rw [IdMap.get?_erase, outcome]

/-- Calls never fail, and they leave each id with its last worker. -/
theorem run_runAll {ε : Type} (calls : List (WorkerCall α)) (loader : Loader α)
    (journal : Journal) :
    ∃ after journal', (runAll loader calls : Logged ε (Loader α)).run.run journal =
        (.ok after, journal') ∧
      ∀ id, after.get? id = outcomeOf calls id (loader.get? id) := by
  induction calls generalizing loader journal with
  | nil => exact ⟨loader, journal, rfl, fun id => rfl⟩
  | cons call rest ih =>
    obtain ⟨between, journal', hfirst, hbetween⟩ := run_run (ε := ε) call loader journal
    obtain ⟨after, journal'', hrest, hafter⟩ := ih between journal'
    refine ⟨after, journal'', ?_, fun id => ?_⟩
    · exact (Stateful.run_bind_of_ok hfirst).trans hrest
    · rw [hafter, hbetween]
      rfl

theorem exists_leadsTo (calls : List (WorkerCall α)) :
    ∃ m : Loader α, LeadsTo calls m ∧ ∀ id, m.get? id = mapping calls id := by
  obtain ⟨m, -, -, hm⟩ := run_runAll (ε := Unit) calls .empty default
  refine ⟨m, fun ε journal => ?_, hm⟩
  obtain ⟨after, journal', hrun, hafter⟩ := run_runAll (ε := ε) calls .empty journal
  have hsame : after = m := IdMap.ext_get? fun id => (hafter id).trans (hm id).symm
  exact ⟨journal', hsame ▸ hrun⟩

end WorkerCall

/-! ## Tables -/

/-- A hash table of workers: its entries in the order in which it is iterated. -/
structure WorkerTable (α : Type) where
  /-- The ids with their workers. -/
  entries : List (String × α)
  /-- No id stands twice. -/
  distinct : (entries.map (·.1)).Nodup

namespace WorkerTable

/-- The table without workers. -/
def empty : WorkerTable α := ⟨[], .nil⟩

/-- The worker of an id. -/
def get? (t : WorkerTable α) (id : String) : Option α := t.entries.lookup id

/-- The ids, sorted. -/
def ids (t : WorkerTable α) : List String := (t.entries.map (·.1)).mergeSort (· ≤ ·)

/-- The entries, sorted by id. -/
def sorted (t : WorkerTable α) : List (String × α) := t.entries.mergeSort fun a b => a.1 ≤ b.1

/-- The first entry in the order of ids whose worker has a property. -/
def find? (t : WorkerTable α) (p : α → Bool) : Option (String × α) := t.sorted.find? fun e => p e.2

/-- What a call does to a table; the order afterwards may be any. -/
inductive Step : WorkerTable α → WorkerCall α → WorkerTable α → Prop
  | register {t after : WorkerTable α} {id : String} {worker : α}
      (h : after.entries.Perm ((id, worker) :: t.entries.filter (·.1 != id))) :
      Step t (.register id worker) after
  | remove {t after : WorkerTable α} {id : String}
      (h : after.entries.Perm (t.entries.filter (·.1 != id))) : Step t (.remove id) after

/-- What calls do to a table; without any the order may still become another. -/
inductive Steps : WorkerTable α → List (WorkerCall α) → WorkerTable α → Prop
  | nil {t after : WorkerTable α} (h : after.entries.Perm t.entries) : Steps t [] after
  | cons {t between after : WorkerTable α} {call : WorkerCall α} {rest : List (WorkerCall α)}
      (first : Step t call between) (later : Steps between rest after) :
      Steps t (call :: rest) after

variable {t after : WorkerTable α}

theorem mem_entries_iff {id : String} {worker : α} :
    (id, worker) ∈ t.entries ↔ t.get? id = some worker :=
  (IdMap.lookup_eq_some_iff t.distinct).symm

/-! ## What calls do to a table -/

theorem get?_step {call : WorkerCall α} (h : Step t call after) (id : String) :
    after.get? id = call.outcome id (t.get? id) := by
  apply Option.ext
  intro w
  rw [← mem_entries_iff]
  cases h with
  | @register _ other worker h =>
    rw [h.mem_iff, List.mem_cons, List.mem_filter, mem_entries_iff, WorkerCall.outcome]
    by_cases hid : other = id
    · simp [hid, eq_comm]
    · simp [hid, Ne.symm hid]
  | @remove _ other h =>
    rw [h.mem_iff, List.mem_filter, mem_entries_iff, WorkerCall.outcome]
    by_cases hid : other = id
    · simp [hid]
    · simp [hid, Ne.symm hid]

theorem get?_steps {calls : List (WorkerCall α)} (h : Steps t calls after) (id : String) :
    after.get? id = WorkerCall.outcomeOf calls id (t.get? id) := by
  induction h with
  | nil h =>
    apply Option.ext
    intro w
    rw [← mem_entries_iff, h.mem_iff, mem_entries_iff]
    rfl
  | cons first later ih =>
    rw [ih, get?_step first]
    rfl

theorem exists_step (t : WorkerTable α) (call : WorkerCall α) : ∃ after, Step t call after := by
  have hleft (id : String) : ((t.entries.filter (·.1 != id)).map (·.1)).Nodup :=
    (List.filter_sublist.map _).nodup t.distinct
  cases call with
  | register id worker =>
    have hnew : id ∉ (t.entries.filter (·.1 != id)).map (·.1) := by simp
    exact ⟨⟨(id, worker) :: t.entries.filter (·.1 != id), List.nodup_cons.2 ⟨hnew, hleft id⟩⟩,
      .register (.refl _)⟩
  | remove id => exact ⟨⟨t.entries.filter (·.1 != id), hleft id⟩, .remove (.refl _)⟩

theorem exists_steps (t : WorkerTable α) (calls : List (WorkerCall α)) :
    ∃ after, Steps t calls after := by
  induction calls generalizing t with
  | nil => exact ⟨t, .nil (.refl _)⟩
  | cons call rest ih =>
    obtain ⟨between, hfirst⟩ := t.exists_step call
    obtain ⟨after, hlater⟩ := ih between
    exact ⟨after, .cons hfirst hlater⟩

/-! ## What a table answers -/

theorem pairwise_sorted (t : WorkerTable α) : t.sorted.Pairwise fun a b => a.1 < b.1 := by
  have hle : t.sorted.Pairwise fun a b => decide (a.1 ≤ b.1) = true := by
    apply List.pairwise_mergeSort
    · intro a b c hab hbc
      rw [decide_eq_true_eq] at hab hbc ⊢
      exact String.le_trans hab hbc
    · intro a b
      rw [Bool.or_eq_true, decide_eq_true_eq, decide_eq_true_eq]
      exact String.le_total a.1 b.1
  have hne : t.sorted.Pairwise fun a b => a.1 ≠ b.1 := by
    have hnodup : (t.sorted.map (·.1)).Nodup :=
      ((List.mergeSort_perm _ _).map _).nodup_iff.2 t.distinct
    exact List.pairwise_map.1 (List.nodup_iff_pairwise_ne.1 hnodup)
  refine (hle.and hne).imp ?_
  rintro a b ⟨hle, hne⟩
  by_contra hnot
  exact hne (String.le_antisymm (of_decide_eq_true hle) (String.not_lt.1 hnot))

/-- The map from ids that a table stands for. -/
def loader (t : WorkerTable α) : Loader α := ⟨t.sorted, t.pairwise_sorted⟩

theorem get?_loader (t : WorkerTable α) (id : String) : t.loader.get? id = t.get? id := by
  apply Option.ext
  intro w
  have hmem : (id, w) ∈ t.sorted ↔ (id, w) ∈ t.entries := (List.mergeSort_perm _ _).mem_iff
  rw [← IdMap.mem_entries_iff, ← mem_entries_iff]
  exact hmem

/-- The ids alone are sorted as they are among the entries. -/
theorem ids_loader (t : WorkerTable α) : t.loader.ids = t.ids :=
  List.map_mergeSort fun _ _ _ _ => rfl

/-- A table stands for the map from ids that gives the same workers to them. -/
theorem loader_eq {m : Loader α} (h : ∀ id, t.get? id = m.get? id) : t.loader = m :=
  IdMap.ext_get? fun id => (t.get?_loader id).trans (h id)

/-- A table answers as a loader does. -/
structure AnswersLike (t : WorkerTable α) (m : Loader α) : Prop where
  get? : ∀ id, t.get? id = m.get? id
  ids : t.ids = m.ids
  entries : t.sorted = m.entries
  find? : ∀ p, t.find? p = m.find? p

theorem answersLike_loader (t : WorkerTable α) : t.AnswersLike t.loader where
  get? id := (t.get?_loader id).symm
  ids := t.ids_loader.symm
  entries := rfl
  find? _ := rfl

/-- Histories that end in one mapping lead to one loader, and to tables that stand for it. -/
theorem exists_loader {calls others : List (WorkerCall α)}
    (h : ∀ id, WorkerCall.mapping calls id = WorkerCall.mapping others id) :
    ∃ m : Loader α, WorkerCall.LeadsTo calls m ∧ WorkerCall.LeadsTo others m ∧
      ∀ t, Steps empty calls t ∨ Steps empty others t → t.loader = m := by
  obtain ⟨m, hm, hget⟩ := WorkerCall.exists_leadsTo calls
  obtain ⟨m', hm', hget'⟩ := WorkerCall.exists_leadsTo others
  have hsame : m' = m := IdMap.ext_get? fun id => by rw [hget', hget, h]
  subst hsame
  refine ⟨m', hm, hm', ?_⟩
  rintro t (ht | ht)
  · exact loader_eq fun id => (get?_steps ht id).trans (hget id).symm
  · exact loader_eq fun id => (get?_steps ht id).trans (hget' id).symm

end WorkerTable

end ExecutorHost
