import Mathlib.Data.List.Forall2
import ExecutorHost.Models
import ExecutorHost.Proofs.Event.Journal
import ExecutorHost.Proofs.Outcome

/-!
# Loading a models folder

Executor specifications and mappings are loaded alike. First every document file of the folder is
read, in the order of the walk; then the workers enter their loader in that order, one by one and in
place. So a broken file fails the folder before the loader has changed, and among documents with one
id the last one stays.
-/

namespace ExecutorHost.Models

variable {α β : Type}

/-- A kind of documents of which each describes a worker. -/
structure Kind (α : Type) where
  /-- A document carries the marker of the kind. -/
  marked : Document → Bool
  /-- The worker that a document of a file describes. -/
  parse : Document → Option Path → Except WorkerError α
  /-- The id of a worker. -/
  idOf : α → String
  /-- What reading a file reports. -/
  readEvents : Path → Except WorkerError (Option α) → List Event
  /-- What loading a folder reports. -/
  loadedEvent : String → Nat → Event

def specifications : Kind Specification where
  marked := Specification.isSpecification
  parse := Specification.parse
  idOf := (·.id)
  readEvents := specificationEvents
  loadedEvent := .specificationsLoaded

def mappings : Kind Mapping where
  marked := Mapping.isMapping
  parse := Mapping.parse
  idOf := (·.id)
  readEvents := mappingEvents
  loadedEvent := .mappingsLoaded

/-! ## Loading in place -/

/-- A computation that changes a loader and may fail; what it has changed by then stays. -/
abbrev InPlace (α : Type) := ExceptT WorkerError (StateM (Loader α × Journal))

/-- A computation that leaves the loader alone. -/
def InPlace.lift (action : Logged WorkerError β) : InPlace α β := do
  let (loader, journal) ← get
  let (result, journal) := action.run.run journal
  set (loader, journal)
  MonadExcept.ofExcept result

/-- A worker registered in the loader itself. -/
def InPlace.register (id : String) (worker : α) : InPlace α Unit := do
  let (loader, _) ← get
  let entered ← InPlace.lift (loader.register id worker)
  modify fun (_, journal) => (entered, journal)

namespace Kind

variable (kind : Kind α) (tree : FileTree) (folder : Path)

/-- The worker that a file holds, or nothing if its document is of another kind. -/
def loadFile (file : Path) : Except WorkerError (Option α) := do
  let d ← readSpecificationFile tree file
  if kind.marked d then return some (← kind.parse d (some file)) else return none

/-- The workers of a folder. -/
def read : Logged WorkerError (List α) :=
  readDocuments tree folder fun file => reporting (kind.readEvents file) (kind.loadFile tree file)

/-- The workers of a folder registered in place; their number. -/
def load : InPlace α Nat := do
  let workers ← InPlace.lift (kind.read tree folder)
  workers.forM fun worker => InPlace.register (kind.idOf worker) worker
  InPlace.lift (Logged.report (kind.loadedEvent folder.text workers.length))
  return workers.length

end Kind

/-! ## What a folder holds -/

/-- The document files that a walk visits, in its order. -/
def documentFiles (tree : FileTree) (folder : Path) : List Path :=
  match tree.contains folder, tree.walk folder with
  | true, .ok visits =>
    (visits.map (·.path)).filter fun file => tree.isFile file && isDocumentFile file
  | _, _ => []

/-- The document that a file holds, if the file can be read and holds one. -/
def document? (tree : FileTree) (file : Path) : Option Document :=
  (tree.readText file).toOption.bind fun text => (Document.ofText text).toOption

namespace Kind

variable (kind : Kind α) (tree : FileTree) (folder : Path)

/-- The document files of the kind. -/
def recognized : List Path :=
  (documentFiles tree folder).filter fun file => (document? tree file).any kind.marked

/-- A file holds no document, or one of the kind that is malformed. -/
def Broken (file : Path) : Prop :=
  document? tree file = none ∨
    ∃ d e, document? tree file = some d ∧ kind.marked d ∧ kind.parse d (some file) = .error e

/-- A file holds a document of the kind, and it describes a worker. -/
def Holds (file : Path) (worker : α) : Prop :=
  ∃ d, document? tree file = some d ∧ kind.marked d ∧ kind.parse d (some file) = .ok worker

/-- Each id has the last worker of that id, or else the one before. -/
def Entered (workers : List α) (loader entered : Loader α) : Prop :=
  ∀ id, entered.get? id = (workers.reverse.find? fun w => kind.idOf w == id).or (loader.get? id)

/-- Loading fails at a broken file and leaves the loader alone, or else no file is broken and the
workers of the files have entered it. -/
def AllOrNothing (loader : Loader α) (result : Except WorkerError Nat) (after : Loader α) : Prop :=
  (∃ e, result = .error e ∧ after = loader ∧
      ∃ file ∈ documentFiles tree folder, kind.Broken tree file) ∨
    (result = .ok (kind.recognized tree folder).length ∧
      (∀ file ∈ documentFiles tree folder, ¬kind.Broken tree file) ∧
      ∃ workers, List.Forall₂ (kind.Holds tree) (kind.recognized tree folder) workers ∧
        kind.Entered workers loader after)

end Kind

/-! ## Reading -/

/-- What is reported does not change a result. -/
theorem fst_run_reporting (events : Except WorkerError α → List Event)
    (result : Except WorkerError α) (journal : Journal) :
    ((reporting events result).run.run journal).1 = result := by
  have hreports := Logged.run_forM_report (ε := WorkerError) (events result) journal
  unfold reporting
  rw [Stateful.run_bind_of_ok hreports, Stateful.run_ofExcept]

theorem exists_walk {tree : FileTree} {folder : Path} (h : tree.contains folder = true) :
    ∃ visits, tree.walk folder = .ok visits := by
  unfold FileTree.contains FileTree.find at h
  cases hlocate : tree.locate folder with
  | error fault =>
    rw [hlocate] at h
    cases h
  | ok location =>
    unfold FileTree.walk
    rw [hlocate]
    exact ⟨_, rfl⟩

theorem documentFiles_of_walk {tree : FileTree} {folder : Path} {visits : List FileTree.Visit}
    (hcontains : tree.contains folder = true) (hwalk : tree.walk folder = .ok visits) :
    documentFiles tree folder =
      (visits.filter fun visit => tree.isFile visit.path && isDocumentFile visit.path).map
        (·.path) := by
  unfold documentFiles
  rw [hcontains, hwalk]
  exact List.filter_map

/-- A walk does not fail where there is something, so reading a folder is reading its files. -/
theorem fst_run_readDocuments (tree : FileTree) (folder : Path)
    {reader : Path → Logged WorkerError (Option α)} {result : Path → Except WorkerError (Option α)}
    (h : ∀ file journal, ((reader file).run.run journal).1 = result file) (journal : Journal) :
    ((readDocuments tree folder reader).run.run journal).1 =
      ((documentFiles tree folder).mapM result).map (·.filterMap id) := by
  unfold readDocuments readAll
  cases hcontains : tree.contains folder with
  | false =>
    unfold documentFiles
    rw [hcontains]
    rfl
  | true =>
    obtain ⟨visits, hwalk⟩ := exists_walk hcontains
    have hvisits : (MonadExcept.ofExcept ((tree.walk folder).mapError (WorkerError.io folder)) :
        Logged WorkerError (List FileTree.Visit)).run.run journal = (.ok visits, journal) := by
      rw [hwalk]
      rfl
    rw [documentFiles_of_walk hcontains hwalk, List.mapM_map]
    show ((MonadExcept.ofExcept ((tree.walk folder).mapError (WorkerError.io folder)) >>=
      fun visits => (visits.filter fun visit =>
          tree.isFile visit.path && isDocumentFile visit.path).mapM (fun visit =>
            reader visit.path) >>= fun items => pure (items.filterMap id)).run.run journal).1 = _
    rw [Stateful.run_bind_of_ok hvisits, Stateful.fst_run_map,
      Stateful.fst_run_mapM fun visit : FileTree.Visit => h visit.path]
    rfl

theorem toOption_readSpecificationFile (tree : FileTree) (file : Path) :
    (readSpecificationFile tree file).toOption = document? tree file := by
  unfold readSpecificationFile document?
  cases tree.readText file with
  | error fault => rfl
  | ok text =>
    show ((Document.ofText text).mapError _).toOption = (Document.ofText text).toOption
    cases Document.ofText text with
    | error fault => rfl
    | ok d => rfl

namespace Kind

variable {kind : Kind α} {tree : FileTree} {folder file : Path} {d : Document}

theorem loadFile_of_ok (h : readSpecificationFile tree file = .ok d) :
    kind.loadFile tree file =
      if kind.marked d then (kind.parse d (some file)).map some else .ok none := by
  unfold loadFile
  rw [h]
  show (if kind.marked d then (kind.parse d (some file) >>= fun worker => pure (some worker))
    else pure none) = _
  cases kind.parse d (some file) <;> rfl

theorem broken_iff (h : document? tree file = some d) :
    kind.Broken tree file ↔ kind.marked d = true ∧ ∃ e, kind.parse d (some file) = .error e := by
  constructor
  · rintro (hnone | ⟨d', e, hsome, hmarked, hparse⟩)
    · rw [h] at hnone
      cases hnone
    · rw [h] at hsome
      cases hsome
      exact ⟨hmarked, e, hparse⟩
  · rintro ⟨hmarked, e, hparse⟩
    exact .inr ⟨d, e, h, hmarked, hparse⟩

/-- A file is broken, or it is passed over, or it gives a worker. -/
theorem loadFile_cases (kind : Kind α) (tree : FileTree) (file : Path) :
    (kind.Broken tree file ∧ ∃ e, kind.loadFile tree file = .error e) ∨
      ¬kind.Broken tree file ∧
        (((document? tree file).any kind.marked = false ∧ kind.loadFile tree file = .ok none) ∨
          (document? tree file).any kind.marked = true ∧
            ∃ worker, kind.Holds tree file worker ∧
              kind.loadFile tree file = .ok (some worker)) := by
  have hdocument := toOption_readSpecificationFile tree file
  cases hread : readSpecificationFile tree file with
  | error e =>
    rw [hread] at hdocument
    have hfails : kind.loadFile tree file = .error e := by
      unfold loadFile
      rw [hread]
      rfl
    exact .inl ⟨.inl hdocument.symm, e, hfails⟩
  | ok d =>
    rw [hread] at hdocument
    have hfound : document? tree file = some d := hdocument.symm
    rw [loadFile_of_ok hread, broken_iff hfound]
    by_cases hmarked : kind.marked d = true
    · rw [if_pos hmarked, hfound]
      cases hparse : kind.parse d (some file) with
      | error e => exact .inl ⟨⟨hmarked, e, rfl⟩, e, rfl⟩
      | ok worker =>
        right
        refine ⟨?_, .inr ⟨hmarked, worker, ⟨d, hfound, hmarked, hparse⟩, rfl⟩⟩
        rintro ⟨-, e, hfails⟩
        cases hfails
    · rw [if_neg hmarked, hfound]
      right
      exact ⟨fun h => hmarked h.1, .inl ⟨Bool.eq_false_iff.2 hmarked, rfl⟩⟩

/-- Reading files one after another fails if one of them is broken, and gives the workers of those
of the kind if none is. -/
theorem mapM_loadFile (kind : Kind α) (tree : FileTree) (files : List Path) :
    ((∃ file ∈ files, kind.Broken tree file) ∧ ∃ e, files.mapM (kind.loadFile tree) = .error e) ∨
      (∀ file ∈ files, ¬kind.Broken tree file) ∧
        ∃ results, files.mapM (kind.loadFile tree) = .ok results ∧
          List.Forall₂ (kind.Holds tree)
            (files.filter fun file => (document? tree file).any kind.marked)
            (results.filterMap id) := by
  induction files with
  | nil =>
    right
    exact ⟨fun file hmem => absurd hmem List.not_mem_nil, [], rfl, .nil⟩
  | cons file rest ih =>
    rw [List.mapM_cons]
    rcases kind.loadFile_cases tree file with ⟨hbroken, e, hload⟩ | ⟨hsound, hload⟩
    · left
      rw [hload]
      exact ⟨⟨file, List.mem_cons_self, hbroken⟩, e, rfl⟩
    rcases ih with ⟨⟨other, hmem, hbroken⟩, e, hrest⟩ | ⟨hsounds, results, hrest, hholds⟩
    · left
      refine ⟨⟨other, List.mem_cons_of_mem _ hmem, hbroken⟩, e, ?_⟩
      rcases hload with ⟨-, hload⟩ | ⟨-, worker, -, hload⟩
      · rw [hload, hrest]
        rfl
      · rw [hload, hrest]
        rfl
    · right
      refine ⟨List.forall_mem_cons.2 ⟨hsound, hsounds⟩, ?_⟩
      rcases hload with ⟨hother, hload⟩ | ⟨hmarked, worker, hworker, hload⟩
      · rw [hload, hrest, List.filter_cons, if_neg (Bool.eq_false_iff.1 hother)]
        exact ⟨none :: results, rfl, hholds⟩
      · rw [hload, hrest, List.filter_cons, if_pos hmarked]
        exact ⟨some worker :: results, rfl, .cons hworker hholds⟩

/-- The workers of a folder, in the order of the walk. -/
def workers (kind : Kind α) (tree : FileTree) (folder : Path) : Except WorkerError (List α) :=
  ((documentFiles tree folder).mapM (kind.loadFile tree)).map (·.filterMap id)

theorem fst_run_read (kind : Kind α) (tree : FileTree) (folder : Path) (journal : Journal) :
    ((kind.read tree folder).run.run journal).1 = kind.workers tree folder :=
  fst_run_readDocuments tree folder (fun _ => fst_run_reporting _ _) journal

/-! ## Entering -/

/-- A worker registered, and reported. -/
def enter (kind : Kind α) (state : Loader α × Journal) (worker : α) : Loader α × Journal :=
  (state.1.insert (kind.idOf worker) worker,
    { state.2 with events := state.2.events ++ [state.1.registeredEvent (kind.idOf worker)] })

theorem run_forM_register (workers : List α) (state : Loader α × Journal) :
    (workers.forM fun worker =>
      InPlace.register (kind.idOf worker) worker : InPlace α PUnit).run.run state =
        (.ok (), workers.foldl kind.enter state) := by
  induction workers generalizing state with
  | nil => rfl
  | cons worker rest ih =>
    have hfirst : (InPlace.register (kind.idOf worker) worker : InPlace α Unit).run.run state =
      (.ok (), kind.enter state worker) := rfl
    show (InPlace.register (kind.idOf worker) worker >>= fun _ =>
      rest.forM fun worker => InPlace.register (kind.idOf worker) worker).run.run state = _
    rw [Stateful.run_bind_of_ok hfirst, ih]
    rfl

theorem run_foldlM_register (workers : List α) (state : Loader α × Journal) :
    (workers.foldlM (fun loader worker => loader.register (kind.idOf worker) worker) state.1 :
      Logged WorkerError (Loader α)).run.run state.2 =
        (.ok (workers.foldl kind.enter state).1, (workers.foldl kind.enter state).2) := by
  induction workers generalizing state with
  | nil => rfl
  | cons worker rest ih =>
    have hfirst : (state.1.register (kind.idOf worker) worker :
        Logged WorkerError (Loader α)).run.run state.2 =
      (.ok (kind.enter state worker).1, (kind.enter state worker).2) := rfl
    rw [List.foldlM_cons, Stateful.run_bind_of_ok hfirst, ih]
    rfl

theorem entered_foldl (workers : List α) (state : Loader α × Journal) :
    kind.Entered workers state.1 (workers.foldl kind.enter state).1 := by
  induction workers generalizing state with
  | nil => exact fun id => rfl
  | cons worker rest ih =>
    intro id
    rw [List.foldl_cons, ih, List.reverse_cons, List.find?_append]
    have hfirst : (kind.enter state worker).1.get? id =
        ([worker].find? fun w => kind.idOf w == id).or (state.1.get? id) := by
      by_cases hid : kind.idOf worker = id
      · subst hid
        simp [enter]
      · rw [List.find?_cons_of_neg (by simpa using hid)]
        exact IdMap.get?_insert_of_ne _ (Ne.symm hid) _
    rw [hfirst, Option.or_assoc]

/-! ## Loading -/

/-- A journal with the report that a folder has been loaded. -/
def reported (kind : Kind α) (folder : Path) (count : Nat) (journal : Journal) : Journal :=
  { journal with events := journal.events ++ [kind.loadedEvent folder.text count] }

theorem run_load (kind : Kind α) (tree : FileTree) (folder : Path) (loader : Loader α)
    {journal between : Journal} {result : Except WorkerError (List α)}
    (h : (kind.read tree folder).run.run journal = (result, between)) :
    (kind.load tree folder).run.run (loader, journal) =
      match result with
      | .error e => (.error e, (loader, between))
      | .ok workers =>
        let entered := workers.foldl kind.enter (loader, between)
        (.ok workers.length, (entered.1, kind.reported folder workers.length entered.2)) := by
  have hlift : (InPlace.lift (kind.read tree folder) : InPlace α (List α)).run.run
      (loader, journal) = (result, (loader, between)) := by
    show (MonadExcept.ofExcept ((kind.read tree folder).run.run journal).1 :
      InPlace α (List α)).run.run (loader, ((kind.read tree folder).run.run journal).2) = _
    rw [h, Stateful.run_ofExcept]
  unfold load
  cases result with
  | error e => exact Stateful.run_bind_of_error hlift
  | ok workers =>
    rw [Stateful.run_bind_of_ok hlift, Stateful.run_bind_of_ok (run_forM_register workers _)]
    rfl

theorem run_enterAll (kind : Kind α) (tree : FileTree) (folder : Path) (loader : Loader α)
    {journal between : Journal} {result : Except WorkerError (List α)}
    (h : (kind.read tree folder).run.run journal = (result, between)) :
    (enterAll (kind.read tree folder)
        (fun loader worker => loader.register (kind.idOf worker) worker)
        (kind.loadedEvent folder.text) loader).run.run journal =
      match result with
      | .error e => (.error e, between)
      | .ok workers =>
        let entered := workers.foldl kind.enter (loader, between)
        (.ok (entered.1, workers.length), kind.reported folder workers.length entered.2) := by
  unfold enterAll
  cases result with
  | error e => exact Stateful.run_bind_of_error h
  | ok workers =>
    rw [Stateful.run_bind_of_ok h,
      Stateful.run_bind_of_ok (run_foldlM_register workers (loader, between))]
    rfl

/-- A call loads a folder: it does what loading in place does, which is all or nothing. -/
def Loads (kind : Kind α) (tree : FileTree) (folder : Path)
    (call : Loader α → Logged WorkerError (Loader α × Nat)) : Prop :=
  ∀ loader journal, ∃ result after journal',
    (kind.load tree folder).run.run (loader, journal) = (result, (after, journal')) ∧
      (call loader).run.run journal = (result.map fun count => (after, count), journal') ∧
      kind.AllOrNothing tree folder loader result after

theorem loads_enterAll (kind : Kind α) (tree : FileTree) (folder : Path) :
    kind.Loads tree folder fun loader =>
      enterAll (kind.read tree folder)
        (fun loader worker => loader.register (kind.idOf worker) worker)
        (kind.loadedEvent folder.text) loader := by
  intro loader journal
  have hread := kind.fst_run_read tree folder journal
  unfold workers at hread
  cases hrun : (kind.read tree folder).run.run journal with
  | mk result between =>
    rw [hrun] at hread
    have hload := kind.run_load tree folder loader hrun
    have henter := kind.run_enterAll tree folder loader hrun
    rcases kind.mapM_loadFile tree (documentFiles tree folder) with
      ⟨hbroken, e, hfiles⟩ | ⟨hsound, results, hfiles, hholds⟩
    · rw [hfiles] at hread
      cases hread
      exact ⟨.error e, loader, between, hload, henter, .inl ⟨e, rfl, rfl, hbroken⟩⟩
    · rw [hfiles] at hread
      cases hread
      have hcount : (results.filterMap id).length = (kind.recognized tree folder).length :=
        hholds.length_eq.symm
      refine ⟨_, _, _, hload, henter, .inr ⟨congrArg Except.ok hcount, hsound, _, hholds, ?_⟩⟩
      exact entered_foldl (results.filterMap id) (loader, between)

end Kind

/-- Loading a folder fails if and only if one of its document files is broken, and then it leaves
the loader alone. Otherwise it gives the number of documents of the kind; each id has the last
worker of that id in the order of the walk, and the worker it had before if there is none. -/
theorem loading_all_or_nothing (tree : FileTree) (folder : Path) :
    specifications.Loads tree folder
        (loadSpecifications tree folder fun loader s => loader.register s.id s) ∧
      mappings.Loads tree folder (loadMappings tree folder) :=
  ⟨specifications.loads_enterAll tree folder, mappings.loads_enterAll tree folder⟩

example : isDocumentFile ⟨"/models/X.JSON"⟩ = true ∧
    isDocumentFile ⟨"/models/x.jsonl"⟩ = false := by
  decide

end ExecutorHost.Models
