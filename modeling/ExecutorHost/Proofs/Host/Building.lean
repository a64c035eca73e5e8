import ExecutorHost.Proofs.FileTree.Location
import ExecutorHost.Proofs.Host.Platforms
import ExecutorHost.Proofs.Settings.Agreement
import ExecutorHost.Proofs.Worker.Loading
import Mathlib

/-!
# Hosts from their parts

What a host holds is what its files say: manifests, and the documents of models folders. What has
been reported has no part in it, so each part of a host is had from the tree alone, and a host is
built from these parts if its settings can be searched.
-/

namespace ExecutorHost

open Logged Stateful

namespace Manifest

variable {tree : FileTree} {folder : Path}

/-- The manifest of a folder is the one that the text of its file describes. -/
theorem fst_run_loadFolder {text : String} {d : Document} {m : Manifest} {journal : Journal}
    (hfolder : tree.isFolder folder = true)
    (hfind : tree.find (fileIn tree.working folder) = .ok (.file (FileTree.bytesOf text)))
    (htext : Document.ofText text = .ok d)
    (hparse : ((parse tree.working d (some (fileIn tree.working folder))).run.run
      journal.generated).1 = .ok m) :
    ((loadFolder tree folder).run.run journal).1 = .ok m := by
  have hcontains : tree.contains (fileIn tree.working folder) = true := by
    rw [FileTree.contains, hfind]
  have hread : readFile tree (fileIn tree.working folder) = .ok d := by
    rw [readFile, FileTree.readText_of_find hfind]
    exact mapError_eq_ok_iff.2 htext
  obtain ⟨n', hrun⟩ := exists_run_eq_iff.2 hparse
  have hmade : (generating (parse tree.working d (some (fileIn tree.working folder)))).run.run
      journal = (.ok m, { journal with generated := n' }) := by
    rw [run_generating, hrun]
  unfold loadFolder
  dsimp only
  rw [hfolder, hcontains]
  show ((loadFile tree (fileIn tree.working folder)).run.run journal).1 = _
  rw [loadFile, hread, run_bind_of_ok (run_ofExcept _),
    run_bind_of_ok (run_reportingError_of_ok hmade)]
  rfl

end Manifest

/-! ## Models folders -/

/-- The document of a file is the one that the text of the file writes. -/
theorem readSpecificationFile_of_find {tree : FileTree} {file : Path} {text : String}
    {d : Document} (hfind : tree.find file = .ok (.file (FileTree.bytesOf text)))
    (htext : Document.ofText text = .ok d) : readSpecificationFile tree file = .ok d := by
  rw [readSpecificationFile, FileTree.readText_of_find hfind]
  show readSpecificationText text (some file) = .ok d
  rw [readSpecificationText, htext]
  rfl

namespace Models.Kind

variable {α : Type}

theorem fst_foldl_enter (kind : Kind α) (workers : List α) (state : Loader α × Journal) :
    (workers.foldl kind.enter state).1 =
      workers.foldl (fun loader worker => loader.insert (kind.idOf worker) worker) state.1 := by
  induction workers generalizing state with
  | nil => rfl
  | cons worker rest ih => exact ih _

theorem fst_run_enterAll (kind : Kind α) (tree : FileTree) (folder : Path) (loader : Loader α)
    (journal : Journal) :
    ((enterAll (kind.read tree folder)
        (fun loader worker => loader.register (kind.idOf worker) worker)
        (kind.loadedEvent folder.text) loader).run.run journal).1 =
      (kind.workers tree folder).map fun workers =>
        (workers.foldl (fun loader worker => loader.insert (kind.idOf worker) worker) loader,
          workers.length) := by
  rw [← kind.fst_run_read tree folder journal]
  cases hrun : (kind.read tree folder).run.run journal with
  | mk result between =>
    rw [kind.run_enterAll tree folder loader hrun]
    cases result with
    | error e => rfl
    | ok workers =>
      dsimp only [Except.map]
      rw [fst_foldl_enter]

end Models.Kind

namespace Host

variable {tree : FileTree} {c : HostConfiguration} {journal : Journal}

/-- The workers of models folders, those of later folders in place of earlier ones. -/
def modelsOf (tree : FileTree) (folders : List Path) :
    Except WorkerError (Loader Specification × Loader Mapping) :=
  folders.foldlM
    (fun (specifications, mappings) folder => do
      let described ← Models.specifications.workers tree folder
      let mapped ← Models.mappings.workers tree folder
      return (described.foldl (fun loader s => loader.insert s.id s) specifications,
        mapped.foldl (fun loader m => loader.insert m.id m) mappings))
    (IdMap.empty, IdMap.empty)

theorem fst_run_loadModels (tree : FileTree) (folders : List Path) (journal : Journal) :
    ((loadModels tree folders).run.run journal).1 = modelsOf tree folders := by
  refine fst_run_foldlM (fun loaded folder journal => ?_) folders _ journal
  obtain ⟨specifications, mappings⟩ := loaded
  have hspecifications :=
    Models.specifications.fst_run_enterAll tree folder specifications journal
  have hmappings := Models.mappings.fst_run_enterAll tree folder mappings
  refine (fst_run_bind (g := fun entered =>
    (Models.mappings.workers tree folder).map fun mapped =>
      (entered.1, mapped.foldl (fun loader m => loader.insert m.id m) mappings)) ?_).trans ?_
  · intro entered between
    refine (fst_run_map _).trans ((congrArg _ (hmappings between)).trans ?_)
    cases Models.mappings.workers tree folder <;> rfl
  · refine (congrArg (· >>= _) hspecifications).trans ?_
    cases Models.specifications.workers tree folder with
    | error e => rfl
    | ok described => cases Models.mappings.workers tree folder <;> rfl

theorem fst_run_searchSettings (specifications : Loader Specification) (journal : Journal) :
    ((searchSettings {} specifications).run.run journal).1 =
      (({} : SettingsSearch).run specifications).2.map fun _ =>
        (({} : SettingsSearch).run specifications).1 := by
  rw [searchSettings]
  obtain ⟨search, result⟩ := ({} : SettingsSearch).run specifications
  dsimp only
  rw [run_bind_of_ok (run_forM_report _ journal)]
  cases result <;> rfl

/-- A search that succeeds and is complete satisfies every configuration. -/
theorem succeeds_completeSearch {specifications : Loader Specification}
    (hsucceeds : Succeeds (({} : SettingsSearch).run specifications).2)
    (hcomplete : (({} : SettingsSearch).run specifications).1.isComplete = true)
    (c : HostConfiguration) (journal : Journal) :
    Succeeds ((completeSearch c specifications).run.run journal).1 := by
  obtain ⟨r, hr⟩ := hsucceeds
  have hsearch := fst_run_searchSettings specifications journal
  rw [hr] at hsearch
  obtain ⟨between, hrun⟩ := exists_run_eq_iff.2 hsearch
  rw [completeSearch, run_bind_of_ok (run_mapError_of_ok hrun HostError.settings), hcomplete]
  simp
  exact succeeds_ok _

/-- A host is built from what the tree holds if the search of its settings is complete. -/
theorem exists_run_build {platforms : Registry} {folders : List Path}
    {specifications : Loader Specification} {mappings : Loader Mapping}
    (hplatforms : ((loadPlatforms tree c).run.run journal).1 = .ok platforms)
    (hfolders : platforms.modelsFolders = .ok folders)
    (hmodels : modelsOf tree folders = .ok (specifications, mappings))
    (hsucceeds : Succeeds (({} : SettingsSearch).run specifications).2)
    (hcomplete : (({} : SettingsSearch).run specifications).1.isComplete = true) :
    ∃ host, ((build tree c).run.run journal).1 = .ok host ∧ host.platforms = platforms ∧
      host.specifications = specifications ∧
      host.combiners.entries = Combiner.allOf specifications ∧ host.mappings = mappings := by
  obtain ⟨between, hplatforms⟩ := exists_run_eq_iff.2 hplatforms
  have hread : (MonadExcept.ofExcept (platforms.modelsFolders.mapError .extension) :
      Logged HostError (List Path)).run.run between = (.ok folders, between) := by
    rw [hfolders]
    rfl
  rw [← fst_run_loadModels tree folders between] at hmodels
  obtain ⟨loaded, hmodels⟩ := exists_run_eq_iff.2 hmodels
  obtain ⟨combiners, registered, hall, hregister⟩ :=
    Combiner.run_registerAll (ε := HostError) specifications loaded
  rw [build, run_bind_of_ok (run_mapError_of_ok hplatforms HostError.extension),
    run_bind_of_ok hread, run_bind_of_ok (run_mapError_of_ok hmodels HostError.worker)]
  dsimp only
  rw [run_bind_of_ok hregister]
  dsimp only
  split
  · obtain ⟨search, hsearch⟩ := succeeds_completeSearch hsucceeds hcomplete c registered
    obtain ⟨last, hsearch⟩ := exists_run_eq_iff.2 hsearch
    rw [map_eq_pure_bind, bind_assoc, run_bind_of_ok hsearch]
    exact ⟨_, rfl, rfl, rfl, hall, rfl⟩
  · exact ⟨_, rfl, rfl, rfl, hall, rfl⟩

end Host

/-! ## An extension with settings -/

namespace Sample

/-- The text of a manifest with one platform, which has a models folder. -/
def manifestText : String :=
  "\x7b\"app\":\"executors-extension\",\"platforms\":[\x7b\"id\":\"x\",\"technology\":\"t\",\"folders\":\x7b\"models\":\"m\"\x7d\x7d]\x7d"

/-- The text of settings of a blur, which refer to those of a kernel. -/
def blurText : String :=
  "\x7b\"app\":\"executor\",\"id\":\"b\",\"role\":\x7b\"name\":\"blur\",\"settings\":true\x7d,\"controls\":[\x7b\"name\":\"kernel\",\"value_type\":\"settings\"\x7d]\x7d"

/-- The text of settings of a kernel. -/
def kernelText : String :=
  "\x7b\"app\":\"executor\",\"id\":\"k\",\"role\":\x7b\"name\":\"kernel\",\"settings\":true\x7d\x7d"

/-- The text of a manifest of another extension with the same platform. -/
def repeatingText : String :=
  "\x7b\"app\":\"executors-extension\",\"platforms\":[\x7b\"id\":\"x\",\"technology\":\"t\"\x7d]\x7d"

/-- Two extensions, the first of them with documents at different depths, and a link to it. -/
def extensions (manifest blur kernel repeating : List UInt8) : FileTree where
  entries := [
    (["ext"], .folder), (["ext", "a"], .folder),
    (["ext", "a", "extension.json"], .file manifest),
    (["ext", "a", "m"], .folder),
    (["ext", "a", "m", "blur.json"], .file blur),
    (["ext", "a", "m", "n"], .folder),
    (["ext", "a", "m", "n", "kernel.json"], .file kernel),
    (["ext", "b"], .folder),
    (["ext", "b", "extension.json"], .file repeating),
    (["link"], .link ⟨"ext/a"⟩)]
  working := ⟨"/"⟩

section Places

variable {manifest blur kernel repeating : List UInt8}

theorem locate_extensions {p : Path} {result : Except IoFault Location} (steps : List String)
    (hempty : p.text.isEmpty = false) (hsteps : FileTree.steps (Path.join ⟨"/"⟩ p) = steps)
    (h : (extensions manifest blur kernel repeating).resolve true FileTree.linkLimit [] steps =
      result) :
    (extensions manifest blur kernel repeating).locate p = result := by
  have hall : (extensions manifest blur kernel repeating).allSteps p = steps := hsteps
  rw [FileTree.locate, hempty, hall]
  exact h

theorem locate_link : (extensions manifest blur kernel repeating).locate ⟨"/link/"⟩ =
    .ok ["ext", "a"] :=
  locate_extensions ["", "link", ""] (by decide) (by decide) (by cbv)

theorem locate_manifest : (extensions manifest blur kernel repeating).locate
    ⟨"/link/extension.json"⟩ = .ok ["ext", "a", "extension.json"] :=
  locate_extensions ["", "link", "extension.json"] (by decide) (by decide) (by cbv)

theorem locate_models : (extensions manifest blur kernel repeating).locate ⟨"/link/m"⟩ =
    .ok ["ext", "a", "m"] :=
  locate_extensions ["", "link", "m"] (by decide) (by decide) (by cbv)

theorem locate_blur : (extensions manifest blur kernel repeating).locate ⟨"/link/m/blur.json"⟩ =
    .ok ["ext", "a", "m", "blur.json"] :=
  locate_extensions ["", "link", "m", "blur.json"] (by decide) (by decide) (by cbv)

theorem locate_nested : (extensions manifest blur kernel repeating).locate ⟨"/link/m/n"⟩ =
    .ok ["ext", "a", "m", "n"] :=
  locate_extensions ["", "link", "m", "n"] (by decide) (by decide) (by cbv)

theorem locate_kernel : (extensions manifest blur kernel repeating).locate
    ⟨"/link/m/n/kernel.json"⟩ = .ok ["ext", "a", "m", "n", "kernel.json"] :=
  locate_extensions ["", "link", "m", "n", "kernel.json"] (by decide) (by decide) (by cbv)

end Places

def manifestDocument : Document :=
  .object [
    ("app", .string "executors-extension"), ("platforms", .array [
      .object [("id", .string "x"), ("technology", .string "t"),
        ("folders", .object [("models", .string "m")])]])]

def blurDocument : Document :=
  .object [
    ("app", .string "executor"), ("id", .string "b"),
    ("role", .object [("name", .string "blur"), ("settings", .bool true)]),
    ("controls", .array [
      .object [("name", .string "kernel"), ("value_type", .string "settings")]])]

def kernelDocument : Document :=
  .object [
    ("app", .string "executor"), ("id", .string "k"),
    ("role", .object [("name", .string "kernel"), ("settings", .bool true)])]

set_option maxRecDepth 4000 in
theorem ofText_manifestText : Document.ofText manifestText = .ok manifestDocument := by
  have hchars : manifestText.toList = _ := String.toList_ofList
  rw [Document.ofText, Document.read, hchars]
  cbv

set_option maxRecDepth 4000 in
theorem ofText_blurText : Document.ofText blurText = .ok blurDocument := by
  have hchars : blurText.toList = _ := String.toList_ofList
  rw [Document.ofText, Document.read, hchars]
  cbv

theorem ofText_kernelText : Document.ofText kernelText = .ok kernelDocument := by
  have hchars : kernelText.toList = _ := String.toList_ofList
  rw [Document.ofText, Document.read, hchars]
  cbv

/-- The extensions with these texts. -/
def linked : FileTree :=
  extensions (FileTree.bytesOf manifestText) (FileTree.bytesOf blurText)
    (FileTree.bytesOf kernelText) (FileTree.bytesOf repeatingText)

/-- The first extension listed through the link; its settings must be complete. -/
def listed : HostConfiguration := { folders := [⟨"/link/"⟩], requireComplete := true }

/-- The platform of the first extension, read through the link. -/
def platform : Platform where
  file := some ⟨"/link/extension.json"⟩
  id := "x"
  name := "Unnamed"
  technology := "t"
  builtIn := false
  folders := { models := some "m", root := some ⟨"/link"⟩ }

def manifest : Manifest where
  file := some ⟨"/link/extension.json"⟩
  version := "1.0"
  platforms := [platform]

def blurSettings : Specification where
  file := some ⟨"/link/m/blur.json"⟩
  version := "0.0.1"
  id := "b"
  name := "b"
  role := some ⟨"blur", true⟩
  controls := [{ name := "kernel", valueType := "settings" }]

def kernelSettings : Specification where
  file := some ⟨"/link/m/n/kernel.json"⟩
  version := "0.0.1"
  id := "k"
  name := "k"
  role := some ⟨"kernel", true⟩

theorem fst_run_loadFolder_link (journal : Journal) :
    ((Manifest.loadFolder linked ⟨"/link/"⟩).run.run journal).1 = .ok manifest := by
  have hfolder : linked.isFolder ⟨"/link/"⟩ = true := by
    rw [FileTree.isFolder, linked, FileTree.find_of_locate locate_link rfl]
  have hfile : Manifest.fileIn linked.working ⟨"/link/"⟩ = ⟨"/link/extension.json"⟩ := by decide
  have hfind : linked.find (Manifest.fileIn linked.working ⟨"/link/"⟩) =
      .ok (.file (FileTree.bytesOf manifestText)) := by
    rw [hfile]
    exact FileTree.find_of_locate locate_manifest rfl
  exact Manifest.fst_run_loadFolder hfolder hfind ofText_manifestText rfl

theorem modelsFolders_manifest :
    (Manifest.registryOf [manifest]).modelsFolders = .ok [⟨"/link/m"⟩] := by
  rfl

theorem documentFiles_linked :
    Models.documentFiles linked ⟨"/link/m"⟩ =
      [⟨"/link/m/blur.json"⟩, ⟨"/link/m/n/kernel.json"⟩] := by
  have hcontains : linked.contains ⟨"/link/m"⟩ = true := by
    rw [FileTree.contains, linked, FileTree.find_of_locate locate_models rfl]
  have hwalk : linked.walk ⟨"/link/m"⟩ = .ok [⟨⟨"/link/m"⟩, 0⟩, ⟨⟨"/link/m/blur.json"⟩, 1⟩,
      ⟨⟨"/link/m/n"⟩, 1⟩, ⟨⟨"/link/m/n/kernel.json"⟩, 2⟩] := by
    rw [FileTree.walk, linked, locate_models]
    rfl
  rw [Models.documentFiles_of_walk hcontains hwalk]
  simp only [List.filter, linked, FileTree.isFile, FileTree.find_of_locate locate_models rfl,
    FileTree.find_of_locate locate_blur rfl, FileTree.find_of_locate locate_nested rfl,
    FileTree.find_of_locate locate_kernel rfl]
  rfl

theorem readSpecificationFile_blur :
    readSpecificationFile linked ⟨"/link/m/blur.json"⟩ = .ok blurDocument :=
  readSpecificationFile_of_find (FileTree.find_of_locate locate_blur rfl) ofText_blurText

theorem readSpecificationFile_kernel :
    readSpecificationFile linked ⟨"/link/m/n/kernel.json"⟩ = .ok kernelDocument :=
  readSpecificationFile_of_find (FileTree.find_of_locate locate_kernel rfl) ofText_kernelText

theorem workers_linked :
    Models.specifications.workers linked ⟨"/link/m"⟩ = .ok [blurSettings, kernelSettings] ∧
      Models.mappings.workers linked ⟨"/link/m"⟩ = .ok [] := by
  rw [Models.Kind.workers, Models.Kind.workers, documentFiles_linked]
  simp only [List.mapM_cons, List.mapM_nil,
    Models.Kind.loadFile_of_ok readSpecificationFile_blur,
    Models.Kind.loadFile_of_ok readSpecificationFile_kernel]
  exact ⟨rfl, rfl⟩

/-- The settings of the first extension under their ids. -/
def linkedSettings : Loader Specification :=
  (IdMap.empty.insert "b" blurSettings).insert "k" kernelSettings

theorem modelsOf_linked : Host.modelsOf linked [⟨"/link/m"⟩] = .ok (linkedSettings, .empty) := by
  rw [Host.modelsOf, List.foldlM_cons, workers_linked.1, workers_linked.2]
  rfl

theorem run_linkedSettings :
    Succeeds (({} : SettingsSearch).run linkedSettings).2 ∧
      (({} : SettingsSearch).run linkedSettings).1.isComplete = true := by
  have hids : SettingsSearch.probableIds linkedSettings = ["b", "k"] :=
    SettingsSearch.probableIds_of_forall (by decide)
  have hok : Succeeds (({} : SettingsSearch).run linkedSettings).2 := by
    rw [Succeeds, SettingsSearch.run_ok_iff, ← IdGraph.circle?_eq_none_iff, hids]
    cbv
  obtain ⟨r, hr⟩ := hok
  refine ⟨⟨r, hr⟩, ?_⟩
  rw [SettingsSearch.isComplete_run hr, hids]
  cbv

theorem fst_run_registerFolders_link (journal : Journal) :
    ((Host.registerFolders linked [⟨"/link/"⟩]).run.run journal).1 =
      .ok (Manifest.registryOf [manifest]) := by
  obtain ⟨read, hload⟩ := exists_run_eq_iff.2 (fst_run_loadFolder_link journal)
  obtain ⟨registered, -, hrun⟩ := Host.run_registerFolder hload .empty
  have hdistinct : (Manifest.idsOf ([] ++ [manifest])).Nodup := by decide
  have hempty : (Host.registerFolders linked []).run.run journal = (.ok .empty, journal) := rfl
  rw [← List.nil_append [_], Host.registerFolders_snoc, run_bind_of_ok hempty, hrun]
  exact Manifest.addAll_registryOf hdistinct

/-- A host of the first extension is built, with a combiner for each of its settings. -/
theorem exists_run_build_linked {c : HostConfiguration} {journal : Journal}
    (h : ((Host.extensionFolders linked c).run.run journal).1 = .ok [⟨"/link/"⟩]) :
    ∃ host, ((Host.build linked c).run.run journal).1 = .ok host ∧
      host.combiners.entries.map Prod.fst = ["b", "k"] := by
  obtain ⟨between, hfolders⟩ := exists_run_eq_iff.2 h
  obtain ⟨registered, hregister⟩ :=
    exists_run_eq_iff.2 (fst_run_registerFolders_link between)
  have hplatforms : ((Host.loadPlatforms linked c).run.run journal).1 =
      .ok (Manifest.registryOf [manifest]) := by
    rw [Host.loadPlatforms, run_bind_of_ok hfolders, run_bind_of_ok hregister]
    split <;> rfl
  obtain ⟨hsucceeds, hcomplete⟩ := run_linkedSettings
  obtain ⟨host, hhost, -, -, hall, -⟩ :=
    Host.exists_run_build hplatforms modelsFolders_manifest modelsOf_linked hsucceeds hcomplete
  refine ⟨host, hhost, ?_⟩
  rw [hall]
  rfl

end Sample

end ExecutorHost
