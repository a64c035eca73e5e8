import ExecutorHost.Proofs.Extension.Invariant

/-!
# Resolved folders

A name resolves to itself if it is absolute, and else to the root continued by it. The root is made
absolute wherever folders get one, so what resolves is absolute, and the only failure is a relative
name without a root. A platform that is read from a file has a root whenever the path of the file has
a parent, which for a bare file name is the empty path and stands for the working folder.
-/

namespace ExecutorHost

namespace Folders

/-- Folders that come from nothing, from a root or from the document of a platform, and from calls
that follow, where every working folder has been absolute. -/
inductive Reachable : Folders → Prop
  | new : Reachable {}
  | withRoot {working : Path} (absolute : working.isAbsolute = true) (root : Path) :
      Reachable (Folders.rooted working (some root))
  | ofPlatform {working : Path} {object : Members} {file : Option Path} {p : Platform} {n n' : Nat}
      (absolute : working.isAbsolute = true)
      (run : (Platform.parse working object file).run.run n = (.ok p, n')) : Reachable p.folders
  | changed {folders : Folders} (reachable : Reachable folders) (change : Change)
      (absolute : change.Grounded) : Reachable (change.perform.run.run folders).2

variable {folders : Folders}

theorem Reachable.grounded (h : folders.Reachable) : folders.Grounded := by
  induction h with
  | new =>
    have habsolute : (⟨"/"⟩ : Path).isAbsolute = true := rfl
    exact .rooted habsolute none
  | withRoot absolute root => exact .rooted absolute (some root)
  | ofPlatform absolute run =>
    obtain ⟨technology, made, -, -, hfilled⟩ := Platform.of_run_parse run
    exact Platform.grounded_of_parseFolders absolute hfilled.folders
  | changed reachable change absolute ih => exact ih.changed change absolute

theorem resolve_cases (folders : Folders) (name : String) :
    ((⟨name⟩ : Path).isAbsolute = true ∧ folders.resolve name = .ok ⟨name⟩) ∨
      ((⟨name⟩ : Path).isAbsolute = false ∧
        ((∃ root, folders.root = some root ∧ folders.resolve name = .ok (root.join ⟨name⟩)) ∨
          (folders.root = none ∧
            folders.resolve name = .error (.relativeFolderWithoutRoot name)))) := by
  cases hname : (⟨name⟩ : Path).isAbsolute with
  | true => exact .inl ⟨rfl, by simp [resolve, hname]⟩
  | false =>
    refine .inr ⟨rfl, ?_⟩
    cases hroot : folders.root with
    | some root => exact .inl ⟨root, rfl, by simp [resolve, hname, hroot]⟩
    | none => exact .inr ⟨rfl, by simp [resolve, hname, hroot]⟩

theorem Anchored.isAbsolute_of_resolve (h : folders.Anchored) {name : String} {path : Path}
    (hresolve : folders.resolve name = .ok path) : path.isAbsolute = true := by
  rcases folders.resolve_cases name with ⟨hname, hok⟩ | ⟨-, ⟨root, hroot, hok⟩ | ⟨-, herror⟩⟩
  · cases hok.symm.trans hresolve
    exact hname
  · cases hok.symm.trans hresolve
    exact Path.isAbsolute_join (h root hroot) _
  · cases herror.symm.trans hresolve

theorem resolve_eq_error_iff {name : String} {e : ExtensionError} :
    folders.resolve name = .error e ↔
      e = .relativeFolderWithoutRoot name ∧ (⟨name⟩ : Path).isAbsolute = false ∧
        folders.root = none := by
  rcases folders.resolve_cases name with
    ⟨hname, hok⟩ | ⟨hname, ⟨root, hroot, hok⟩ | ⟨hroot, herror⟩⟩
  · simp [hok, hname]
  · simp [hok, hroot]
  · simp [herror, hname, hroot, eq_comm]

theorem exists_resolve {root : Path} (h : folders.root = some root) (name : String) :
    Succeeds (folders.resolve name) := by
  cases hresolve : folders.resolve name with
  | ok path => exact succeeds_ok path
  | error e =>
    obtain ⟨-, -, hnone⟩ := resolve_eq_error_iff.1 hresolve
    cases hnone.symm.trans h

/-- Both questions about the folder of a kind resolve the declared name, if there is one. -/
theorem folder_cases (folders : Folders) (kind : FolderKind) :
    (folders.folder kind = .error (.folderNotSpecified kind) ∧
        folders.folderIfDeclared kind = .ok none) ∨
      ∃ name, folders.folder kind = folders.resolve name ∧
        folders.folderIfDeclared kind = (folders.resolve name).map some := by
  unfold folder folderIfDeclared
  cases folders.declared kind with
  | none => exact .inl ⟨rfl, rfl⟩
  | some name => exact .inr ⟨name, rfl, rfl⟩

theorem folderIfDeclared_eq_none_iff {kind : FolderKind} :
    folders.folderIfDeclared kind = .ok none ↔
      folders.folder kind = .error (.folderNotSpecified kind) := by
  rcases folders.folder_cases kind with ⟨hfolder, hdeclared⟩ | ⟨name, hfolder, hdeclared⟩
  · simp [hfolder, hdeclared]
  · rw [hfolder, hdeclared]
    rcases folders.resolve_cases name with ⟨-, h⟩ | ⟨-, ⟨root, -, h⟩ | ⟨-, h⟩⟩ <;>
      simp [h, Except.map]

theorem folderIfDeclared_eq_map {kind : FolderKind}
    (h : folders.folder kind ≠ .error (.folderNotSpecified kind)) :
    folders.folderIfDeclared kind = (folders.folder kind).map some := by
  rcases folders.folder_cases kind with ⟨hfolder, -⟩ | ⟨name, hfolder, hdeclared⟩
  · exact absurd hfolder h
  · rw [hfolder, hdeclared]

end Folders

namespace Platform

variable {p : Platform}

/-- The root of a platform's folders is the parent of its file, whether folders are declared or
not. -/
theorem root_of_parseFolders {working : Path} {object : Members} {root : Option Path}
    {folders : Folders} (h : parseFolders working object root = .ok folders) :
    folders.root = root.map (Folders.absoluteRoot working) := by
  unfold parseFolders at h
  obtain ⟨declared, -, h⟩ := exists_of_bind_eq_ok h
  cases declared with
  | none =>
    cases h
    rfl
  | some declared => exact Folders.root_of_parse h

theorem exists_resourcePaths {root : Path} (h : p.folders.root = some root) :
    Succeeds p.resourcePaths :=
  succeeds_mapM_iff.2 fun _ _ => Folders.exists_resolve h _

theorem isAbsolute_of_mem_resourcePaths (h : p.folders.Anchored) {paths : List Path}
    (hpaths : p.resourcePaths = .ok paths) {path : Path} (hmem : path ∈ paths) :
    path.isAbsolute = true := by
  obtain ⟨name, -, hresolve⟩ := exists_of_mem_mapM hpaths hmem
  exact h.isAbsolute_of_resolve hresolve

/-- Once the resource paths are resolved, only a missing one is a reason to fail. -/
theorem checkResourcePaths_ne_error {tree : FileTree} {name : String}
    (h : Succeeds p.resourcePaths) :
    p.checkResourcePaths tree ≠ .error (.relativeFolderWithoutRoot name) := by
  obtain ⟨paths, hpaths⟩ := h
  unfold checkResourcePaths
  cases p.configuration.requireExistingPaths with
  | false => simp [pure, Except.pure]
  | true =>
    rw [hpaths]
    cases hmissing : paths.find? (!tree.contains ·) with
    | none => simp [hmissing, bind, Except.bind, pure, Except.pure]
    | some path => simp [hmissing, bind, Except.bind]

end Platform

namespace Folders

/-- A name resolves to an absolute path, itself or the root continued by it, or it is relative and
there is no root. Asking for the folder of a kind if it is declared gives nothing where asking for it
fails because it is not declared, and otherwise the same path or the same error. A platform that is
read from a file with a parent never lacks a root, and every path has a parent but the empty one and
the root. -/
theorem resolved_folders_are_absolute :
    (∀ {folders : Folders}, folders.Reachable →
      (∀ name path, folders.resolve name = .ok path →
        path.isAbsolute = true ∧
          (((⟨name⟩ : Path).isAbsolute = true ∧ path = ⟨name⟩) ∨
            ((⟨name⟩ : Path).isAbsolute = false ∧
              ∃ root, folders.root = some root ∧ path = root.join ⟨name⟩))) ∧
      (∀ name e, folders.resolve name = .error e ↔
        e = .relativeFolderWithoutRoot name ∧ (⟨name⟩ : Path).isAbsolute = false ∧
          folders.root = none) ∧
      ∀ kind,
        (folders.folderIfDeclared kind = .ok none ↔
          folders.folder kind = .error (.folderNotSpecified kind)) ∧
        (folders.folder kind ≠ .error (.folderNotSpecified kind) →
          folders.folderIfDeclared kind = (folders.folder kind).map some)) ∧
    (∀ {working : Path} {object : Members} {file : Path} {p : Platform} {n n' : Nat},
      working.isAbsolute = true → file.parent? ≠ none →
      (Platform.parse working object (some file)).run.run n = (.ok p, n') →
        (∀ name, Succeeds (p.folders.resolve name)) ∧
        (∀ kind, Succeeds (p.folders.folderIfDeclared kind) ∧
          ∀ e, p.folders.folder kind = .error e → e = .folderNotSpecified kind) ∧
        (∃ paths, p.resourcePaths = .ok paths ∧ ∀ path ∈ paths, path.isAbsolute = true) ∧
        ∀ tree name, p.checkResourcePaths tree ≠ .error (.relativeFolderWithoutRoot name)) ∧
    ∀ file : Path, file.parent? = none ↔ file.components = [] ∨ file.components = [.root] := by
  refine ⟨fun {folders} h => ?_, fun {working object file p n n'} habsolute hparent run => ?_,
    fun file => Path.parent?_eq_none_iff⟩
  · refine ⟨fun name path hresolve => ?_, fun name e => resolve_eq_error_iff,
      fun kind => ⟨folderIfDeclared_eq_none_iff, folderIfDeclared_eq_map⟩⟩
    refine ⟨h.grounded.anchored.isAbsolute_of_resolve hresolve, ?_⟩
    rcases folders.resolve_cases name with
      ⟨hname, hok⟩ | ⟨hname, ⟨root, hroot, hok⟩ | ⟨-, herror⟩⟩
    · cases hok.symm.trans hresolve
      exact .inl ⟨hname, rfl⟩
    · cases hok.symm.trans hresolve
      exact .inr ⟨hname, root, hroot, rfl⟩
    · cases herror.symm.trans hresolve
  · obtain ⟨technology, made, -, -, hfilled⟩ := Platform.of_run_parse run
    obtain ⟨parent, hfile⟩ := Option.ne_none_iff_exists'.1 hparent
    have hroot : p.folders.root = some (absoluteRoot working parent) := by
      rw [Platform.root_of_parseFolders hfilled.folders, Option.bind_some, hfile, Option.map_some]
    have hresolves := exists_resolve hroot
    have hpaths := Platform.exists_resourcePaths hroot
    refine ⟨hresolves, fun kind => ?_, ?_, fun tree name => ?_⟩
    · rcases p.folders.folder_cases kind with ⟨hfolder, hdeclared⟩ | ⟨name, hfolder, hdeclared⟩
      · rw [hfolder, hdeclared]
        exact ⟨succeeds_ok none, fun e he => (Except.error.inj he).symm⟩
      · rw [hfolder, hdeclared]
        obtain ⟨path, hpath⟩ := hresolves name
        rw [hpath]
        refine ⟨succeeds_ok (some path), fun e he => ?_⟩
        cases he
    · have hanchored := (Reachable.ofPlatform habsolute run).grounded.anchored
      obtain ⟨paths, hpaths⟩ := hpaths
      exact ⟨paths, hpaths, fun path => Platform.isAbsolute_of_mem_resourcePaths hanchored hpaths⟩
    · exact Platform.checkResourcePaths_ne_error hpaths

/-- A platform with a relative folder and a class path that has a pattern in it. -/
def snakeObject : Members := [
  ("technology", .string "python"),
  ("folders", .object [("models", .string "models")]),
  ("configuration", .object [("classpath", .ofStrings ["lib/./a.whl", "lib/*"])])]

theorem resolved_folders_are_absolute_bare :
    ∃ (p : Platform) (left : Folders),
      ((⟨"/w"⟩ : Path).isAbsolute = true ∧ (⟨"extension.json"⟩ : Path).parent? ≠ none ∧
        (Platform.parse ⟨"/w"⟩ snakeObject (some ⟨"extension.json"⟩)).run.run 0 = (.ok p, 1) ∧
        Succeeds (p.folders.folderIfDeclared .models) ∧
        p.resourcePaths = .ok [⟨"/w/lib/./a.whl"⟩] ∧
        (⟨"/w/lib/./a.whl"⟩ : Path).isAbsolute = true) ∧
      (p.folders.Reachable ∧ p.folders.resolve "models" = .ok ⟨"/w/models"⟩ ∧
        (⟨"/w/models"⟩ : Path).isAbsolute = true) ∧
      (left.Reachable ∧ left.folder .models ≠ .error (.folderNotSpecified .models) ∧
        left.resolve "models" = .error (.relativeFolderWithoutRoot "models") ∧
        left.folderIfDeclared .models = (left.folder .models).map some) ∧
      (⟨"//."⟩ : Path).parent? = none := by
  have habsolute : (⟨"/w"⟩ : Path).isAbsolute = true := rfl
  have hparent : (⟨"extension.json"⟩ : Path).parent? ≠ none := by
    rw [ne_eq, Path.parent?_eq_none_iff]
    decide
  have hrun : ∃ p, (Platform.parse ⟨"/w"⟩ snakeObject (some ⟨"extension.json"⟩)).run.run 0 =
      (.ok p, 1) ∧ p.folders = ⟨some "models", none, none, none, some ⟨"/w"⟩, false⟩ ∧
      p.resourcePaths = .ok [⟨"/w/lib/./a.whl"⟩] := ⟨_, rfl, rfl, rfl⟩
  obtain ⟨p, hrun, hfolders, hpaths⟩ := hrun
  have hreachable : p.folders.Reachable := .ofPlatform habsolute hrun
  obtain ⟨hreached, hparsed, hparents⟩ := resolved_folders_are_absolute
  obtain ⟨-, hkinds, ⟨paths, hresolved, hall⟩, -⟩ := hparsed habsolute hparent hrun
  cases hpaths.symm.trans hresolved
  have hmodels : p.folders.resolve "models" = .ok ⟨"/w/models"⟩ := by
    rw [hfolders]
    rfl
  -- without its root the platform can only resolve absolute names
  have hleft := hreachable.changed (.setRoot ⟨"/w"⟩ none) rfl
  obtain ⟨-, herror, hkind⟩ := hreached hleft
  have hdeclared : ((Change.setRoot ⟨"/w"⟩ none).perform.run.run p.folders).2.folder .models ≠
      .error (.folderNotSpecified .models) := by
    rw [hfolders]
    intro h
    cases h
  have hroot : ((Change.setRoot ⟨"/w"⟩ none).perform.run.run p.folders).2.root = none := by
    rw [hfolders]
    rfl
  exact ⟨p, _, ⟨habsolute, hparent, hrun, (hkinds .models).1, hpaths, hall _ (by simp)⟩,
    ⟨hreachable, hmodels, ((hreached hreachable).1 _ _ hmodels).1⟩,
    ⟨hleft, hdeclared, (herror _ _).2 ⟨rfl, rfl, hroot⟩, (hkind .models).2 hdeclared⟩,
    (hparents _).2 (.inr (by decide))⟩

end Folders

end ExecutorHost
