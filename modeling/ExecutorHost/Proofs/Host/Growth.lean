import ExecutorHost.Host.Basic
import ExecutorHost.Proofs.Event.Growth

/-!
# Building a host only adds to the journal

No step of building a host looks at what has been reported before it.
-/

namespace ExecutorHost

open Logged

variable {tree : FileTree}

/-! ## Extensions -/

namespace Manifest

theorem appends_loadFile (tree : FileTree) (path : Path) : Appends (loadFile tree path) := by
  refine (Appends.ofExcept _).bind fun document => ?_
  refine (Appends.reportingError _ (.generating _)).bind fun manifest => ?_
  exact (Appends.report _).bind fun _ => .pure manifest

theorem appends_loadFolder (tree : FileTree) (folder : Path) :
    Appends (loadFolder tree folder) := by
  refine .ite ((Appends.throw _).bind fun _ => ?_) ?_ <;>
    exact .ite ((Appends.throw _).bind fun _ => appends_loadFile tree _) (appends_loadFile tree _)

theorem appends_discoverFolders (tree : FileTree) (root : Path) :
    Appends (discoverFolders tree root) := by
  refine (Appends.ofExcept _).bind fun visits => ?_
  exact (Appends.report _).bind fun _ => .pure _

end Manifest

namespace Registry

theorem appends_register (r : Registry) (platforms : List Platform) :
    Appends (r.register platforms) := by
  unfold register
  cases r.addAll platforms with
  | ok after =>
    exact (Appends.forIn (fun _ _ => (Appends.report _).bind fun _ => .pure _) _ _).bind
      fun _ => .pure _
  | error e =>
    exact (Appends.forIn (fun _ _ => (Appends.report _).bind fun _ => .pure _) _ _).bind
      fun _ => .throw e

theorem appends_checkResourcePaths (r : Registry) (tree : FileTree) :
    Appends (r.checkResourcePaths tree) := by
  refine (Appends.forIn (fun p _ => ?_) r.platforms PUnit.unit).bind fun _ => .pure ()
  refine (Appends.ofExcept _).bind fun _ => ?_
  exact .ite ((Appends.report _).bind fun _ => .pure _) (.pure _)

end Registry

/-! ## Models -/

namespace Models

variable {α σ : Type}

theorem appends_readAll {path : Path} {recursive : Bool} {allowed : Path → Bool}
    {reader : Path → Logged WorkerError (Option α)} (h : ∀ file, Appends (reader file)) :
    Appends (readAll tree path recursive allowed reader) := by
  refine .ite (.pure []) ?_
  refine (Appends.ofExcept _).bind fun visits => ?_
  exact (Appends.mapM (fun visit : FileTree.Visit => h visit.path) _).bind fun _ => .pure _

theorem appends_reporting (events : Except WorkerError α → List Event)
    (result : Except WorkerError α) : Appends (reporting events result) :=
  (Appends.forM .report _).bind fun _ => .ofExcept result

theorem appends_enterAll {read : Logged WorkerError (List α)}
    {enter : σ → α → Logged WorkerError σ} (hread : Appends read)
    (henter : ∀ s a, Appends (enter s a)) (event : Nat → Event) (state : σ) :
    Appends (enterAll read enter event state) := by
  refine hread.bind fun items => ?_
  refine (Appends.foldlM henter items state).bind fun entered => ?_
  exact (Appends.report _).bind fun _ => .pure _

end Models

theorem Loader.appends_register {ε α : Type} (loader : Loader α) (id : String) (worker : α) :
    Appends (loader.register id worker : Logged ε (Loader α)) :=
  (Appends.report _).bind fun _ => .pure _

theorem Combiner.appends_registerEach {ε ω : Type} (view : ω → Combiner) (loader : Loader ω)
    (entries : List (String × ω)) :
    Appends (registerEach view loader entries : Logged ε (Loader ω)) := by
  induction entries generalizing loader with
  | nil => exact .pure loader
  | cons entry rest ih =>
    exact (Appends.report _).bind fun _ => (loader.appends_register _ _).bind ih

theorem Combiner.appends_registerAll {ε : Type} (specifications : Loader Specification)
    (combiners : Combiners) :
    Appends (registerAll specifications combiners : Logged ε (Combiners × Nat)) :=
  (appends_registerEach _ combiners _).bind fun _ => .pure _

namespace Host

theorem appends_registerFolders (tree : FileTree) (folders : List Path) :
    Appends (registerFolders tree folders) := by
  refine .foldlM (fun platforms folder => ?_) folders Registry.empty
  refine (Manifest.appends_loadFolder tree folder).bind fun manifest => ?_
  exact (platforms.appends_register _).bind fun _ => .pure _

theorem appends_extensionFolders (tree : FileTree) (c : HostConfiguration) :
    Appends (extensionFolders tree c) :=
  (Appends.mapM (Manifest.appends_discoverFolders tree) c.roots).bind fun _ => .pure _

theorem appends_loadPlatforms (tree : FileTree) (c : HostConfiguration) :
    Appends (loadPlatforms tree c) := by
  refine (appends_extensionFolders tree c).bind fun folders => ?_
  refine (appends_registerFolders tree folders).bind fun platforms => ?_
  exact .ite ((platforms.appends_checkResourcePaths tree).bind fun _ => .pure _) (.pure _)

theorem appends_loadModels (tree : FileTree) (folders : List Path) :
    Appends (loadModels tree folders) := by
  refine .foldlM (fun loaded folder => ?_) folders _
  obtain ⟨specifications, mappings⟩ := loaded
  have hspecifications : Appends (Models.readSpecifications tree folder) :=
    Models.appends_readAll fun file => Models.appends_reporting _ _
  have hmappings : Appends (Models.readMappings tree folder) :=
    Models.appends_readAll fun file => Models.appends_reporting _ _
  refine (Models.appends_enterAll hspecifications (fun loader s => ?_) _ _).bind fun entered => ?_
  · exact loader.appends_register s.id s
  refine (Models.appends_enterAll hmappings (fun loader m => ?_) _ _).bind fun _ => .pure _
  exact loader.appends_register m.id m

theorem appends_searchSettings (search : SettingsSearch) (specifications : Loader Specification) :
    Appends (searchSettings search specifications) := by
  unfold searchSettings
  refine (Appends.forM .report _).bind fun _ => ?_
  exact (Appends.map _ (.ofExcept _)).bind fun _ => .pure _

theorem appends_completeSearch (c : HostConfiguration) (specifications : Loader Specification) :
    Appends (completeSearch c specifications) := by
  refine ((appends_searchSettings {} specifications).mapError _).bind fun search => ?_
  exact .ite ((Appends.throw _).bind fun _ => .pure _) (.pure _)

/-- Building a host only adds to the journal. -/
theorem appends_build (tree : FileTree) (c : HostConfiguration) : Appends (build tree c) := by
  refine ((appends_loadPlatforms tree c).mapError _).bind fun platforms => ?_
  refine (Appends.ofExcept _).bind fun folders => ?_
  refine ((appends_loadModels tree folders).mapError _).bind fun loaded => ?_
  obtain ⟨specifications, mappings⟩ := loaded
  refine (Combiner.appends_registerAll specifications .empty).bind fun made => ?_
  refine .ite ?_ ((Appends.pure none).bind fun _ => .pure _)
  exact ((appends_completeSearch c specifications).map some).bind fun _ => .pure _

end Host

end ExecutorHost
