import ExecutorHost.Host.Basic
import ExecutorHost.Proofs.Extension.Grammar
import ExecutorHost.Proofs.Extension.Registry
import ExecutorHost.Proofs.Extension.Resolution
import ExecutorHost.Proofs.Host.Platforms
import ExecutorHost.Proofs.Settings.Registration

/-!
# Where a repeated id comes from

A host whose building fails because an id is repeated has read that id: it stands twice in the
manifest of one folder, or in the manifests of two folders of the list that was to be registered.
-/

namespace ExecutorHost

open Logged Stateful

/-- Two platforms are said to have one id. -/
def ExtensionError.IsDuplicate (e : ExtensionError) : Prop :=
  ∃ id file, e = .duplicatePlatformId id file

/-! ## Manifests of folders -/

namespace Manifest

variable {tree : FileTree} {folder : Path}

/-- A manifest has been read from a folder. -/
def LoadedFrom (tree : FileTree) (folder : Path) (m : Manifest) : Prop :=
  ∃ before after, (loadFolder tree folder).run.run before = (.ok m, after)

/-- An id stands in a manifest that has been read from a folder. -/
def Declares (tree : FileTree) (folder : Path) (id : String) : Prop :=
  ∃ m, LoadedFrom tree folder m ∧ id ∈ m.platforms.map Platform.id

/-- It stands there twice. -/
def DeclaresTwice (tree : FileTree) (folder : Path) (id : String) : Prop :=
  ∃ m, LoadedFrom tree folder m ∧ (m.platforms.map Platform.id).Duplicate id

theorem not_isDuplicate_of_readFile {path : Path} {e : ExtensionError}
    (h : readFile tree path = .error e) : ¬e.IsDuplicate := by
  unfold readFile at h
  cases htext : tree.readText path with
  | error fault =>
    rw [htext] at h
    cases h
    simp [ExtensionError.IsDuplicate]
  | ok text =>
    rw [htext] at h
    obtain ⟨fault, -, rfl⟩ := exists_of_mapError_eq_error h
    simp [ExtensionError.IsDuplicate]

/-- Reading a manifest does not look at the ids of others. -/
theorem failsOnly_loadFile (tree : FileTree) (path : Path) :
    FailsOnly (loadFile tree path) fun e => ¬e.IsDuplicate := by
  have hparse (document : Document) :
      FailsOnly (generating (parse tree.working document (some path))) fun e => ¬e.IsDuplicate := by
    refine (FailsOnly.generating (decides_parse _ _ _)).mono fun e he => ?_
    obtain ⟨fault, rfl⟩ := he
    simp [ExtensionError.IsDuplicate]
  refine (FailsOnly.ofExcept fun e he => not_isDuplicate_of_readFile he).bind fun document => ?_
  refine ((hparse document).reportingError _).bind fun m => ?_
  exact (FailsOnly.report _).bind fun _ => .pure m

theorem failsOnly_loadFolder (tree : FileTree) (folder : Path) :
    FailsOnly (loadFolder tree folder) fun e => ¬e.IsDuplicate := by
  have hload := failsOnly_loadFile tree (fileIn tree.working folder)
  have hfolder : ¬(ExtensionError.folderNotFound folder).IsDuplicate := by
    simp [ExtensionError.IsDuplicate]
  have hfile : ¬(ExtensionError.fileNotFound (fileIn tree.working folder) folder).IsDuplicate := by
    simp [ExtensionError.IsDuplicate]
  refine .ite (.bind (.throw hfolder) fun _ => ?_) ?_ <;>
    exact .ite (.bind (.throw hfile) fun _ => hload) hload

theorem failsOnly_discoverFolders (tree : FileTree) (root : Path) :
    FailsOnly (discoverFolders tree root) fun e => ¬e.IsDuplicate := by
  have hwalk : FailsOnly (MonadExcept.ofExcept ((tree.walk root).mapError (.io root)) :
      Logged ExtensionError _) fun e => ¬e.IsDuplicate := by
    refine .ofExcept fun e he => ?_
    obtain ⟨fault, -, rfl⟩ := exists_of_mapError_eq_error he
    simp [ExtensionError.IsDuplicate]
  exact hwalk.bind fun visits => (FailsOnly.report _).bind fun _ => .pure _

end Manifest

/-! ## Registration -/

namespace Host

variable {tree : FileTree} {folders : List Path} {r : Registry} {id : String}
  {file : Option Path} {journal journal' : Journal}

/-- An id stands twice in the manifest of one of the folders, or in the manifests of two of them. -/
def RepeatsId (tree : FileTree) (folders : List Path) (id : String) : Prop :=
  (∃ folder ∈ folders, Manifest.DeclaresTwice tree folder id) ∨
  ∃ first second, [first, second].Sublist folders ∧
    Manifest.Declares tree first id ∧ Manifest.Declares tree second id

theorem forall₂_of_run_loadFolders {manifests : List Manifest}
    (h : ((loadFolders tree folders).run.run journal).1 = .ok manifests) :
    List.Forall₂ (Manifest.LoadedFrom tree) folders manifests := by
  obtain ⟨read, hrun⟩ := exists_run_eq_iff.2 h
  exact forall₂_of_run_mapM_eq_ok hrun

theorem repeatsId_of_refusedBehind {front : List Path} {folder : Path}
    (h : RefusedBehind tree front folder journal (.duplicatePlatformId id file)) (back : List Path) :
    RepeatsId tree (front ++ folder :: back) id := by
  rcases h with herror | ⟨manifests, m, hloaded, p, hp, heq, hrepeated⟩
  · obtain ⟨read, hrun⟩ := exists_run_eq_iff.2 herror
    have hload := FailsOnly.mapM (Manifest.failsOnly_loadFolder tree) (front ++ [folder])
    exact absurd ⟨id, file, rfl⟩ (hload _ _ _ hrun)
  · cases heq
    have hmanifests := List.forall₂_reverse_iff.2 (forall₂_of_run_loadFolders hloaded)
    rw [List.reverse_append, List.reverse_append] at hmanifests
    obtain ⟨hm, hearlier⟩ := List.forall₂_cons.1 hmanifests
    rcases hrepeated with hbefore | htwice
    · obtain ⟨m', hm', hid⟩ := Manifest.mem_idsOf.1 hbefore
      obtain ⟨first, hfirst, hloaded'⟩ :=
        exists_of_mem_left (List.forall₂_reverse_iff.1 hearlier).flip hm'
      have hpair : [first, folder].Sublist (front ++ folder :: back) :=
        (List.singleton_sublist.2 hfirst).append (List.singleton_sublist.2 List.mem_cons_self)
      exact .inr ⟨first, folder, hpair, ⟨m', hloaded', hid⟩, m, hm, List.mem_map_of_mem hp⟩
    · exact .inl ⟨folder, List.mem_append_right _ List.mem_cons_self, m, hm, htwice⟩

theorem repeatsId_of_run_registerFolders
    (h : (registerFolders tree folders).run.run journal =
      (.error (.duplicatePlatformId id file), journal')) :
    RepeatsId tree folders id := by
  have hregistration := registration_registerFolders tree folders journal
  rw [h] at hregistration
  cases hregistration with
  | upTo front folder back manifests e hsplit hfront hrefused =>
    rw [hsplit]
    exact repeatsId_of_refusedBehind hrefused back

/-! ## Hosts -/

theorem not_isDuplicate_of_resolve {folders : Folders} {name : String} {e : ExtensionError}
    (h : folders.resolve name = .error e) : ¬e.IsDuplicate := by
  obtain ⟨rfl, -⟩ := Folders.resolve_eq_error_iff.1 h
  simp [ExtensionError.IsDuplicate]

theorem not_isDuplicate_of_checkResourcePaths {p : Platform} {e : ExtensionError}
    (h : p.checkResourcePaths tree = .error e) : ¬e.IsDuplicate := by
  unfold Platform.checkResourcePaths at h
  cases hrequired : p.configuration.requireExistingPaths with
  | false =>
    rw [hrequired] at h
    cases h
  | true =>
    rw [hrequired] at h
    cases hpaths : p.resourcePaths with
    | error e' =>
      rw [hpaths] at h
      cases h
      obtain ⟨name, -, hname⟩ := exists_of_mapM_eq_error hpaths
      exact not_isDuplicate_of_resolve hname
    | ok paths =>
      cases hmissing : paths.find? (!tree.contains ·) with
      | none => simp [hpaths, hmissing, bind, Except.bind, pure, Except.pure] at h
      | some path =>
        simp only [hpaths, hmissing, bind, Except.bind, if_true, Except.error.injEq] at h
        subst h
        simp [ExtensionError.IsDuplicate]

theorem not_isDuplicate_of_modelsFolders {e : ExtensionError} (h : r.modelsFolders = .error e) :
    ¬e.IsDuplicate := by
  obtain ⟨p, -, hp⟩ := exists_of_mapM_eq_error h
  rcases p.folders.folder_cases .models with ⟨hnone, -⟩ | ⟨name, hname, -⟩
  · cases hnone.symm.trans hp
    simp [ExtensionError.IsDuplicate]
  · exact not_isDuplicate_of_resolve (hname.symm.trans hp)

theorem failsOnly_checkResourcePaths (r : Registry) (tree : FileTree) :
    FailsOnly (r.checkResourcePaths tree) fun e => ¬e.IsDuplicate := by
  refine (FailsOnly.forIn (fun p _ => ?_) r.platforms PUnit.unit).bind fun _ => .pure ()
  refine (FailsOnly.ofExcept fun e => not_isDuplicate_of_checkResourcePaths).bind fun _ => ?_
  exact .ite ((FailsOnly.report _).bind fun _ => .pure _) (.pure _)

/-- The platforms are refused because of a repeated id only if the extension folders repeat it. -/
theorem repeatsId_of_run_loadPlatforms {c : HostConfiguration}
    (h : (loadPlatforms tree c).run.run journal =
      (.error (.duplicatePlatformId id file), journal')) :
    ∃ folders between, (extensionFolders tree c).run.run journal = (.ok folders, between) ∧
      RepeatsId tree folders id := by
  have hfolders : FailsOnly (extensionFolders tree c) fun e => ¬e.IsDuplicate :=
    (FailsOnly.mapM (Manifest.failsOnly_discoverFolders tree) c.roots).bind fun _ => .pure _
  have hchecked (platforms : Registry) : FailsOnly (do
      if c.checkResourcePaths then platforms.checkResourcePaths tree
      return platforms : Logged _ Registry) fun e => ¬e.IsDuplicate :=
    .ite ((failsOnly_checkResourcePaths platforms tree).bind fun _ => .pure _) (.pure _)
  rcases of_run_bind_eq_error h with hfirst | ⟨folders, between, hfirst, h⟩
  · exact absurd ⟨id, file, rfl⟩ (hfolders _ _ _ hfirst)
  · refine ⟨folders, between, hfirst, ?_⟩
    rcases of_run_bind_eq_error h with hregister | ⟨platforms, last, -, h⟩
    · exact repeatsId_of_run_registerFolders hregister
    · exact absurd ⟨id, file, rfl⟩ (hchecked platforms _ _ _ h)

theorem failsOnly_completeSearch (c : HostConfiguration) (specifications : Loader Specification) :
    FailsOnly (completeSearch c specifications) fun e => ∀ error, e ≠ .extension error := by
  intro journal e journal' hrun error
  rcases of_run_bind_eq_error hrun with hsearch | ⟨search, between, -, hrun⟩
  · obtain ⟨e', -, rfl⟩ := exists_of_run_mapError_eq_error hsearch
    simp
  · dsimp only at hrun
    split at hrun <;> cases hrun
    simp

/-- A host is refused because of a repeated id only if the extension folders repeat it. -/
theorem repeatsId_of_run_build {c : HostConfiguration}
    (h : (build tree c).run.run journal =
      (.error (.extension (.duplicatePlatformId id file)), journal')) :
    ∃ folders between, (extensionFolders tree c).run.run journal = (.ok folders, between) ∧
      RepeatsId tree folders id := by
  rcases of_run_bind_eq_error h with hplatforms | ⟨platforms, between, -, h⟩
  · obtain ⟨e, he, hextension⟩ := exists_of_run_mapError_eq_error hplatforms
    cases hextension
    exact repeatsId_of_run_loadPlatforms he
  -- everything behind the platforms fails for other reasons
  exfalso
  rcases of_run_bind_eq_error h with hfolders | ⟨folders, between, -, h⟩
  · rw [run_ofExcept] at hfolders
    obtain ⟨e, he, hextension⟩ := exists_of_mapError_eq_error (Prod.mk.inj hfolders).1
    cases hextension
    exact not_isDuplicate_of_modelsFolders he ⟨id, file, rfl⟩
  rcases of_run_bind_eq_error h with hmodels | ⟨loaded, between, -, h⟩
  · obtain ⟨e, -, hextension⟩ := exists_of_run_mapError_eq_error hmodels
    cases hextension
  obtain ⟨specifications, mappings⟩ := loaded
  obtain ⟨combiners, between', -, hregistered⟩ :=
    Combiner.run_registerAll (ε := HostError) specifications between
  rw [run_bind_of_ok hregistered] at h
  dsimp only at h
  split at h
  · rcases of_run_bind_eq_error h with hsearch | ⟨search, last, -, hmade⟩
    · have hcomplete := failsOnly_completeSearch c specifications
      rw [map_eq_pure_bind] at hsearch
      exact hcomplete.bind (fun _ => .pure _) _ _ _ hsearch _ rfl
    · cases hmade
  · cases h

end Host

end ExecutorHost
