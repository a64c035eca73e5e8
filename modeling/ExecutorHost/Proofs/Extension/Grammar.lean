import ExecutorHost.Proofs.Document.Form
import ExecutorHost.Proofs.Extension.Manifest

/-!
# The grammar of manifests

Which documents are manifests is said here by a grammar, member by member: what must be there, what
may be left out or null, and what form it has. Reading accepts exactly the documents of the grammar,
whatever the file and however many ids have been generated, and every rejection is an error of the
format that names the file.
-/

namespace ExecutorHost

open Document Members

/-! ## Dependencies -/

namespace Dependency

/-- The members of a dependency. -/
@[mk_iff]
structure Grammatical (object : Members) : Prop where
  id : Has IsText object "id"
  name : MayHave IsText object "name"
  description : MayHave IsText object "description"

theorem succeeds_parse_iff {object : Members} :
    Succeeds (parse object) ↔ Grammatical object := by
  rw [grammatical_iff]
  unfold parse
  apply succeeds_bind_iff_and succeeds_string_iff
  intro id
  apply succeeds_bind_iff_and succeeds_string?_iff
  intro name
  rw [succeeds_bind_pure_iff, succeeds_string?_iff]

end Dependency

/-! ## Folders -/

namespace Folders

/-- The members of folders: no declared name is empty. -/
def Grammatical (object : Members) : Prop :=
  ∀ key ∈ ["models", "modules", "libraries", "resources"], MayHave IsName object key

theorem succeeds_parseName_iff {object : Members} {kind : FolderKind} :
    Succeeds (parseName object kind) ↔ MayHave IsName object kind.name := by
  have hnamed : Succeeds (parseName object kind) ↔
      ∃ name, string? object kind.name = .ok name ∧ name ≠ some "" := by
    unfold parseName
    split
    · rename_i e he
      simp [not_succeeds_error, he]
    · rename_i he
      simp [not_succeeds_error, he]
    · rename_i name hname he
      simp only [he, Except.ok.injEq, succeeds_ok, true_iff]
      exact ⟨name, rfl, hname⟩
  rw [hnamed]
  apply exists_optional_iff (by simp)
  intro d
  constructor
  · rintro ⟨text, hd, htext⟩
    exact ⟨text, fun h => htext (congrArg some h), eq_string_of_string? d hd⟩
  · rintro ⟨text, htext, rfl⟩
    exact ⟨text, rfl, fun h => htext (Option.some.inj h)⟩

theorem succeeds_parse_iff {working : Path} {object : Members} {root : Option Path} :
    Succeeds (parse working object root) ↔ Grammatical object := by
  have hread : Succeeds (parse working object root) ↔
      MayHave IsName object "models" ∧ MayHave IsName object "modules" ∧
        MayHave IsName object "libraries" ∧ MayHave IsName object "resources" := by
    unfold parse
    apply succeeds_bind_iff_and succeeds_parseName_iff
    intro models
    apply succeeds_bind_iff_and succeeds_parseName_iff
    intro modules
    apply succeeds_bind_iff_and succeeds_parseName_iff
    intro libraries
    rw [succeeds_bind_pure_iff, succeeds_parseName_iff]
    rfl
  rw [hread]
  simp [Grammatical]

end Folders

/-! ## Configurations -/

namespace Configuration

/-- The members of a configuration that the host understands. -/
@[mk_iff]
structure Grammatical (object : Members) : Prop where
  classpath : MayHave (IsListOf IsText) object "classpath"
  vmOptions : MayHave (IsListOf IsText) object "vm_options"
  requireExistingPaths : MayHave IsFlag object "require_existing_paths"

theorem succeeds_parse_iff {object : Members} :
    Succeeds (parse object) ↔ Grammatical object := by
  rw [grammatical_iff]
  unfold parse
  apply succeeds_bind_iff_and succeeds_strings?_iff
  intro classpath
  apply succeeds_bind_iff_and succeeds_strings?_iff
  intro vmOptions
  rw [succeeds_bind_pure_iff, succeeds_boolOr_iff]

end Configuration

/-! ## Platforms -/

namespace Platform

/-- The members of a platform. -/
structure Grammatical (object : Members) : Prop where
  technology : Has IsName object "technology"
  texts : ∀ key ∈ ["id", "category", "name", "description", "language"],
    MayHave IsText object key
  tags : MayHave (IsListOf IsText) object "tags"
  folders : MayHave (IsObjectOf Folders.Grammatical) object "folders"
  configuration : MayHave (IsObjectOf Configuration.Grammatical) object "configuration"
  dependencies : MayHave (IsListOf (IsObjectOf Dependency.Grammatical)) object "dependencies"

variable {working : Path} {object : Members} {file : Option Path}

theorem parseTechnology_eq_ok_iff {technology : String} :
    parseTechnology object = .ok technology ↔
      string object "technology" = .ok technology ∧ technology ≠ "" := by
  unfold parseTechnology
  constructor
  · intro h
    obtain ⟨read, hread, hrest⟩ := exists_of_bind_eq_ok h
    by_cases hempty : read.isEmpty = true
    · rw [if_pos hempty] at hrest
      cases hrest
    · rw [if_neg hempty] at hrest
      cases hrest
      exact ⟨mapError_eq_ok_iff.1 hread, fun h => hempty (String.isEmpty_iff.2 h)⟩
  · rintro ⟨hread, hne⟩
    have hfull : ¬technology.isEmpty = true := fun h => hne (String.isEmpty_iff.1 h)
    rw [hread]
    simp only [Except.mapError, bind, Except.bind, if_neg hfull]
    rfl

theorem succeeds_parseTechnology_iff :
    Succeeds (parseTechnology object) ↔ Has IsName object "technology" := by
  unfold Succeeds
  simp only [parseTechnology_eq_ok_iff]
  exact exists_string_iff

theorem succeeds_parseFolders_iff {root : Option Path} :
    Succeeds (parseFolders working object root) ↔
      MayHave (IsObjectOf Folders.Grammatical) object "folders" := by
  unfold parseFolders
  rw [succeeds_bind_iff]
  simp only [mapError_eq_ok_iff]
  rw [exists_object?_iff (succeeds_ok _)]
  simp only [Folders.succeeds_parse_iff]

theorem succeeds_parseConfiguration_iff :
    Succeeds (parseConfiguration object) ↔
      MayHave (IsObjectOf Configuration.Grammatical) object "configuration" := by
  unfold parseConfiguration
  rw [succeeds_bind_iff, exists_object?_iff (succeeds_ok _)]
  simp only [Configuration.succeeds_parse_iff]

theorem succeeds_parseDependencies_iff :
    Succeeds (parseDependencies object) ↔
      MayHave (IsListOf (IsObjectOf Dependency.Grammatical)) object "dependencies" := by
  unfold parseDependencies
  rw [succeeds_bind_iff]
  apply exists_objects?_iff (succeeds_ok _)
  intro objects
  simp only [succeeds_mapM_iff, Dependency.succeeds_parse_iff]

/-- Reading the members of a platform, apart from its technology. -/
theorem succeeds_parseMembers_iff {new : Platform} :
    Succeeds (parseMembers working object file new) ↔
      MayHave IsText object "id" ∧ MayHave IsText object "category" ∧
        MayHave IsText object "name" ∧ MayHave IsText object "description" ∧
        MayHave (IsListOf IsText) object "tags" ∧ MayHave IsText object "language" ∧
        MayHave (IsObjectOf Folders.Grammatical) object "folders" ∧
        MayHave (IsObjectOf Configuration.Grammatical) object "configuration" ∧
        MayHave (IsListOf (IsObjectOf Dependency.Grammatical)) object "dependencies" := by
  have htext : ∀ key, Succeeds ((string? object key).mapError ManifestFault.field) ↔
      MayHave IsText object key := by
    intro key
    rw [succeeds_mapError_iff, succeeds_string?_iff]
  unfold parseMembers
  apply succeeds_bind_iff_and (htext "id")
  intro id
  apply succeeds_bind_iff_and (htext "category")
  intro category
  apply succeeds_bind_iff_and (htext "name")
  intro name
  apply succeeds_bind_iff_and (htext "description")
  intro description
  apply succeeds_bind_iff_and (succeeds_mapError_iff.trans succeeds_strings?_iff)
  intro tags
  apply succeeds_bind_iff_and (htext "language")
  intro language
  apply succeeds_bind_iff_and succeeds_parseFolders_iff
  intro folders
  apply succeeds_bind_iff_and (succeeds_mapError_iff.trans succeeds_parseConfiguration_iff)
  intro configuration
  rw [succeeds_bind_pure_iff, succeeds_mapError_iff, succeeds_parseDependencies_iff]

/-- An error of the format of a manifest that names its file. -/
def IsFormatError (file : Option Path) (e : ExtensionError) : Prop :=
  ∃ fault, e = .format file fault

theorem isFormatError_of_mapError {α : Type} {result : Except ManifestFault α} {e : ExtensionError}
    (h : result.mapError (.format file) = .error e) : IsFormatError file e := by
  cases result with
  | ok a => cases h
  | error fault =>
    cases h
    exact ⟨fault, rfl⟩

/-- What a part of the format gives, or an error that names the file. -/
theorem decides_format {α : Type} {result : Except ManifestFault α} {condition : Prop}
    (h : Succeeds result ↔ condition) :
    Stateful.Decides (MonadExcept.ofExcept (result.mapError (ExtensionError.format file)) :
      Generating ExtensionError α) condition (IsFormatError file) :=
  .ofExcept (succeeds_mapError_iff.trans h) fun _ => isFormatError_of_mapError

/-- A platform is read if and only if its members are grammatical. Making the new platform that they
are put into cannot fail, since the technology has been found not to be empty. -/
theorem decides_parse (working : Path) (object : Members) (file : Option Path) :
    Stateful.Decides (parse working object file) (Grammatical object) (IsFormatError file) := by
  have htechnology : Stateful.Decides (MonadExcept.ofExcept
      ((parseTechnology object).mapError (.format file)) : Generating ExtensionError String) _
      (IsFormatError file) := decides_format succeeds_parseTechnology_iff
  have hmembers (made : Platform) : Stateful.Decides (MonadExcept.ofExcept
      ((parseMembers working object file made).mapError (.format file)) :
        Generating ExtensionError Platform) _
      (IsFormatError file) := decides_format succeeds_parseMembers_iff
  have hnew : ∀ technology, technology ≠ "" →
      Stateful.Decides (new technology) True (IsFormatError file) :=
    fun technology hne n => .inl ⟨True.intro, _, _, run_new hne n⟩
  simp only [parse]
  have hparse := htechnology.bind fun n technology n' hrun => by
    rw [Stateful.run_ofExcept] at hrun
    have hread := mapError_eq_ok_iff.1 (congrArg Prod.fst hrun)
    have hne := (parseTechnology_eq_ok_iff.1 hread).2
    exact (hnew technology hne).bind fun _ made _ _ => hmembers made
  apply hparse.congr
  constructor
  · rintro ⟨technology, -, id, category, name, description, tags, language, folders,
      configuration, dependencies⟩
    refine ⟨technology, ?_, tags, folders, configuration, dependencies⟩
    simp only [List.forall_mem_cons]
    exact ⟨id, category, name, description, language, by simp⟩
  · rintro ⟨technology, texts, tags, folders, configuration, dependencies⟩
    simp only [List.forall_mem_cons] at texts
    obtain ⟨id, category, name, description, language, -⟩ := texts
    exact ⟨technology, True.intro, id, category, name, description, tags, language, folders,
      configuration, dependencies⟩

end Platform

/-! ## Manifests -/

namespace Manifest

/-- The document is an object with the marker of manifests. -/
def Marked (d : Document) : Prop :=
  d.IsObjectOf fun object => get? object "app" = some (.string "executors-extension")

/-- The members of a manifest. -/
structure GrammaticalMembers (object : Members) : Prop where
  app : get? object "app" = some (.string "executors-extension")
  version : MayHave IsText object "version"
  platforms : Has (IsListOf (IsObjectOf Platform.Grammatical)) object "platforms"

/-- The grammar of manifests. -/
def Grammatical (d : Document) : Prop := d.IsObjectOf GrammaticalMembers

variable {working : Path} {d : Document} {file : Option Path}

theorem isMarked_iff {object : Members} :
    isMarked object = true ↔ get? object "app" = some (.string "executors-extension") := by
  unfold isMarked
  rw [beq_iff_eq, Option.bind_eq_some_iff]
  constructor
  · rintro ⟨app, hget, happ⟩
    rw [hget, eq_string_of_string? app happ]
    rfl
  · intro hget
    exact ⟨_, hget, rfl⟩

theorem isManifest_iff : isManifest d = true ↔ Marked d := by
  cases d with
  | object object => simp [isManifest, Marked, IsObjectOf, isMarked_iff]
  | _ => simp [isManifest, Marked, IsObjectOf]

/-- The frame of a manifest is read apart from its platforms: their members are checked later. -/
theorem grammatical_iff_parseFrame :
    Grammatical d ↔ ∃ version objects, parseFrame d = .ok (version, objects) ∧
      ∀ o ∈ objects, Platform.Grammatical o := by
  constructor
  · rintro ⟨object, rfl, happ, hversion, items, hplatforms, hitems⟩
    obtain ⟨written, hwritten⟩ := succeeds_string?_iff.2 hversion
    obtain ⟨objects, rfl, hall⟩ := isListOf_object_iff.1 hitems
    refine ⟨written.getD currentVersion, objects, ?_, hall⟩
    have hmarked : ¬(!isMarked object) = true := by
      rw [isMarked_iff.2 happ]
      exact Bool.false_ne_true
    simp only [parseFrame, hmarked, hwritten, objects_of_get? hplatforms, Except.mapError, bind,
      Except.bind]
    rfl
  · rintro ⟨version, objects, hframe, hall⟩
    obtain ⟨object, written, rfl, hmarked, hversion, -, hplatforms⟩ := of_parseFrame hframe
    refine ⟨object, rfl, isMarked_iff.1 hmarked, succeeds_string?_iff.1 ⟨written, hversion⟩, ?_⟩
    exact ⟨_, hplatforms, isListOf_object_iff.2 ⟨objects, rfl, hall⟩⟩

/-- Reading decides the grammar: the platforms are read one by one, each by its own grammar. -/
theorem decides_parse (working : Path) (d : Document) (file : Option Path) :
    Stateful.Decides (parse working d file) (Grammatical d) (Platform.IsFormatError file) := by
  have hplatforms (objects : List Members) :=
    Stateful.Decides.mapM (fun object => Platform.decides_parse working object file) objects
  cases hframe : parseFrame d with
  | error fault =>
    have hnot : ¬Grammatical d := by
      rw [grammatical_iff_parseFrame, hframe]
      rintro ⟨version, objects, h, -⟩
      cases h
    intro n
    refine .inr ⟨hnot, .format file fault, n, ?_, fault, rfl⟩
    unfold parse
    rw [hframe]
    rfl
  | ok frame =>
    obtain ⟨version, objects⟩ := frame
    have hrest : Stateful.Decides (parse working d file) (∀ o ∈ objects, Platform.Grammatical o)
        (Platform.IsFormatError file) := by
      have hread := (hplatforms objects).bind fun _ platforms _ _ =>
        Stateful.Decides.pure (Manifest.mk file version platforms)
      unfold parse
      rw [hframe]
      exact hread.congr (by rw [and_true])
    apply hrest.congr
    rw [grammatical_iff_parseFrame, hframe]
    constructor
    · intro hall
      exact ⟨version, objects, rfl, hall⟩
    · rintro ⟨version', objects', h, hall⟩
      cases h
      exact hall

/-- A document without the marker is not grammatical. -/
theorem Grammatical.marked (h : Grammatical d) : Marked d := by
  obtain ⟨object, rfl, happ, -, -⟩ := h
  exact ⟨object, rfl, happ⟩

/-- With the marker a document is read as a manifest, and without it nothing is read. -/
theorem fst_run_parseIfRecognized (working : Path) (d : Document) (file : Option Path) (n : Nat) :
    (Marked d ∧ ((parseIfRecognized working d file).run.run n).1 =
        ((parse working d file).run.run n).1.map some) ∨
      (¬Marked d ∧ ((parseIfRecognized working d file).run.run n).1 = .ok none) := by
  rw [← isManifest_iff]
  unfold parseIfRecognized
  by_cases hmarked : isManifest d = true
  · rw [if_pos hmarked]
    exact .inl ⟨hmarked, Stateful.fst_run_map some⟩
  · rw [if_neg hmarked]
    exact .inr ⟨hmarked, rfl⟩

/-- Reading accepts exactly the documents of the grammar, and it rejects all others with an error of
the format that names the file. Reading what is recognized gives nothing exactly if the marker is
missing; with the marker it accepts and rejects the same documents in the same way. -/
theorem parse_accepts_grammar (working : Path) (d : Document) (file : Option Path) (n : Nat) :
    ((∃ m n', (parse working d file).run.run n = (.ok m, n')) ↔ Grammatical d) ∧
      ((∃ fault n', (parse working d file).run.run n = (.error (.format file fault), n')) ↔
        ¬Grammatical d) ∧
      ((∃ n', (parseIfRecognized working d file).run.run n = (.ok none, n')) ↔ ¬Marked d) ∧
      ((∃ m n', (parseIfRecognized working d file).run.run n = (.ok (some m), n')) ↔
        Grammatical d) ∧
      ((∃ fault n', (parseIfRecognized working d file).run.run n =
        (.error (.format file fault), n')) ↔ Marked d ∧ ¬Grammatical d) := by
  simp only [Stateful.exists_run_eq_iff]
  have hread := fst_run_parseIfRecognized working d file n
  rcases (decides_parse working d file).fst_run n with ⟨hgood, m, hm⟩ | ⟨hbad, e, he, fault, rfl⟩
  · have hrecognized : ((parseIfRecognized working d file).run.run n).1 = .ok (some m) := by
      rcases hread with ⟨-, hread⟩ | ⟨hunmarked, -⟩
      · rw [hread, hm]
        rfl
      · exact absurd hgood.marked hunmarked
    rw [hm, hrecognized]
    simp [hgood, hgood.marked]
  · rcases hread with ⟨hmarked, hread⟩ | ⟨hunmarked, hread⟩
    · have hrejected : ((parseIfRecognized working d file).run.run n).1 =
          .error (.format file fault) := by
        rw [hread, he]
        rfl
      rw [he, hrejected]
      simp [hbad, hmarked]
    · rw [he, hread]
      simp [hbad, hunmarked]

end Manifest

end ExecutorHost
