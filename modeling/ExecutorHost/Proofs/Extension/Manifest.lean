import ExecutorHost.Proofs.Extension.Platform

/-!
# Reading written manifests

A manifest that has been written is read back with the same version and the same platforms, whatever
file it is read from. What is not written is set by the reading: the file, the root of the folders
and the seals, which a platform that has just been read does not have. So writing it once more gives
the same document.
-/

namespace ExecutorHost

/-! ## Dependencies -/

namespace Dependency

/-- The dependency as it is read back. -/
def reread (d : Dependency) : Dependency := { d with immutable := false }

theorem get?_toMembers (d : Dependency) :
    Members.get? d.toMembers "id" = some (.string d.id) ∧
      Members.get? d.toMembers "name" = d.name.map .string ∧
      Members.get? d.toMembers "description" = d.description.map .string := by
  unfold toMembers
  cases d.name <;> cases d.description <;> exact ⟨rfl, rfl, rfl⟩

theorem parse_toMembers (d : Dependency) : parse d.toMembers = .ok d.reread := by
  obtain ⟨hid, hname, hdescription⟩ := d.get?_toMembers
  unfold parse
  rw [Members.string_of_get? hid, Members.string?_of_get? hname,
    Members.string?_of_get? hdescription]
  rfl

end Dependency

/-! ## Folders -/

namespace Folders

theorem get?_toMembers (folders : Folders) (kind : FolderKind) :
    Members.get? folders.toMembers kind.name = (folders.declared kind).map .string := by
  have hwritten : folders.toMembers = Members.present
      (FolderKind.all.map fun kind => (kind.name, (folders.declared kind).map .string)) := by
    unfold toMembers Members.present
    rw [List.filterMap_map]
    congr 1
    funext kind
    cases h : folders.declared kind <;> simp [h]
  rw [hwritten]
  apply Members.get?_present
  · show (FolderKind.all.map FolderKind.name).Nodup
    decide
  · apply List.mem_map_of_mem (f := fun kind =>
      (FolderKind.name kind, (folders.declared kind).map Document.string))
    cases kind <;> decide

theorem parseName_toMembers {folders : Folders} (h : folders.Named) (kind : FolderKind) :
    parseName folders.toMembers kind = .ok (folders.declared kind) := by
  unfold parseName
  rw [Members.string?_of_get? (folders.get?_toMembers kind)]
  split
  · rename_i heq
    cases heq
  · rename_i heq
    exact absurd (Except.ok.inj heq) (h kind)
  · rename_i heq
    rw [Except.ok.inj heq]

theorem parse_toMembers {folders : Folders} (h : folders.Named) (working : Path)
    (root : Option Path) :
    parse working folders.toMembers root =
      .ok { folders with root := root.map (absoluteRoot working), immutable := false } := by
  unfold parse
  rw [parseName_toMembers h .models, parseName_toMembers h .modules,
    parseName_toMembers h .libraries, parseName_toMembers h .resources]
  rfl

end Folders

/-! ## Platforms -/

namespace Platform

/-- The platform as it is read back from a manifest of a file. -/
def reread (working : Path) (file : Option Path) (p : Platform) : Platform :=
  { p with
    file
    folders := { p.folders with
      root := (file.bind Path.parent?).map (Folders.absoluteRoot working), immutable := false }
    dependencies := p.dependencies.map Dependency.reread
    immutable := false }

/-- Two platforms have everything in common but their files, the roots of their folders and their
seals. -/
structure SameContent (p q : Platform) : Prop where
  id : p.id = q.id
  category : p.category = q.category
  name : p.name = q.name
  description : p.description = q.description
  tags : p.tags = q.tags
  technology : p.technology = q.technology
  builtIn : p.builtIn = q.builtIn
  language : p.language = q.language
  folders : ∀ kind, p.folders.declared kind = q.folders.declared kind
  configuration : p.configuration = q.configuration
  dependencies : p.dependencies.map (fun d => (d.id, d.name, d.description)) =
    q.dependencies.map fun d => (d.id, d.name, d.description)

theorem sameContent_reread (working : Path) (file : Option Path) (p : Platform) :
    (p.reread working file).SameContent p where
  id := rfl
  category := rfl
  name := rfl
  description := rfl
  tags := rfl
  technology := rfl
  builtIn := rfl
  language := rfl
  folders := Folders.declared_update p.folders _ _
  configuration := rfl
  dependencies := by
    rw [reread, List.map_map]
    rfl

/-- Same content is written in the same way. -/
theorem SameContent.toMembers_eq {p q : Platform} (h : p.SameContent q) :
    p.toMembers = q.toMembers := by
  have hfolders : p.folders.toMembers = q.folders.toMembers := by
    simp only [Folders.toMembers, h.folders]
  have hforms : ∀ ds : List Dependency, ds.map (fun d => Document.object d.toMembers) =
      (ds.map fun d => (d.id, d.name, d.description)).map fun parts =>
        .object (Dependency.toMembers ⟨parts.1, parts.2.1, parts.2.2, false⟩) := by
    intro ds
    rw [List.map_map]
    rfl
  have hdependencies : p.dependencies.map (fun d => Document.object d.toMembers) =
      q.dependencies.map fun d => .object d.toMembers := by
    rw [hforms, hforms, h.dependencies]
  have hempty : p.dependencies.isEmpty = q.dependencies.isEmpty := by
    have hparts := congrArg List.isEmpty h.dependencies
    rwa [List.isEmpty_map, List.isEmpty_map] at hparts
  unfold toMembers
  simp only [h.id, h.category, h.name, h.description, h.tags, h.technology, h.language, hfolders,
    h.configuration, hdependencies, hempty]

/-- The members of the written form, those that are left out as well. -/
def entries (p : Platform) : List (String × Option Document) := [
  ("id", some (.string p.id)),
  ("category", p.category.map .string),
  ("name", some (.string p.name)),
  ("description", p.description.map .string),
  ("tags", if p.tags.isEmpty then none else some (.array (p.tags.map .string))),
  ("technology", some (.string p.technology)),
  ("language", p.language.map .string),
  ("folders", some (.object p.folders.toMembers)),
  ("configuration", some (.object p.configuration.toMembers)),
  ("dependencies", if p.dependencies.isEmpty then none
    else some (.array (p.dependencies.map fun d => .object d.toMembers)))]

variable {p : Platform}

theorem get?_toMembers {key : String} {value : Option Document} (h : (key, value) ∈ p.entries) :
    Members.get? p.toMembers key = value := by
  have hdistinct : (p.entries.map (·.1)).Nodup := by
    show ["id", "category", "name", "description", "tags", "technology", "language", "folders",
      "configuration", "dependencies"].Nodup
    decide
  exact Members.get?_present hdistinct h

theorem getD_ite_isEmpty {α : Type} (items : List α) :
    (if items.isEmpty then none else some items).getD [] = items := by
  cases items <;> rfl

theorem parseTechnology_toMembers (h : p.Coherent) :
    parseTechnology p.toMembers = .ok p.technology := by
  have hget : Members.get? p.toMembers "technology" = some (.string p.technology) :=
    get?_toMembers (by simp [entries])
  have hempty : ¬p.technology.isEmpty = true := by
    intro hempty
    exact h.technology (String.isEmpty_iff.1 hempty)
  unfold parseTechnology
  rw [Members.string_of_get? hget]
  simp only [Except.mapError, bind, Except.bind, if_neg hempty]
  rfl

theorem parseFolders_toMembers (h : p.Coherent) (working : Path) (root : Option Path) :
    parseFolders working p.toMembers root =
      .ok { p.folders with
        root := root.map (Folders.absoluteRoot working), immutable := false } := by
  have hget : Members.get? p.toMembers "folders" =
      (some p.folders.toMembers).map .object := get?_toMembers (by simp [entries])
  unfold parseFolders
  rw [Members.object?_of_get? hget]
  exact Folders.parse_toMembers h.folders working root

theorem parseConfiguration_toMembers (h : p.Coherent) :
    parseConfiguration p.toMembers = .ok p.configuration := by
  have hget : Members.get? p.toMembers "configuration" =
      (some p.configuration.source).map .object :=
    get?_toMembers (by simp [entries, Configuration.toMembers])
  unfold parseConfiguration
  rw [Members.object?_of_get? hget]
  exact h.configuration

theorem parseDependencies_toMembers (p : Platform) :
    parseDependencies p.toMembers = .ok (p.dependencies.map Dependency.reread) := by
  have hget : Members.get? p.toMembers "dependencies" =
      (if p.dependencies.isEmpty then none
        else some (.array (p.dependencies.map fun d => .object d.toMembers))) :=
    get?_toMembers (by simp [entries])
  have hforms : (if p.dependencies.isEmpty then none
        else some (.array (p.dependencies.map fun d => .object d.toMembers))) =
      (if p.dependencies.isEmpty then none
        else some (p.dependencies.map Dependency.toMembers)).map
          fun objects => Document.array (objects.map .object) := by
    split
    · rfl
    · rw [Option.map_some, List.map_map]
      rfl
  have hparsed : (p.dependencies.map Dependency.toMembers).mapM Dependency.parse =
      .ok (p.dependencies.map Dependency.reread) := by
    rw [List.mapM_map]
    exact mapM_eq_ok_map fun d _ => d.parse_toMembers
  unfold parseDependencies
  rw [Members.objects?_of_get? (hget.trans hforms)]
  cases hempty : p.dependencies with
  | nil => rfl
  | cons d rest =>
    rw [hempty] at hparsed
    exact hparsed

theorem text_toMembers (p : Platform) (key : String) (value : Option String)
    (h : (key, value.map Document.string) ∈ p.entries) :
    Members.string? p.toMembers key = .ok value :=
  Members.string?_of_get? (get?_toMembers h)

theorem tags_toMembers (p : Platform) :
    Members.strings? p.toMembers "tags" = .ok (if p.tags.isEmpty then none else some p.tags) := by
  have hget : Members.get? p.toMembers "tags" =
      (if p.tags.isEmpty then none else some (.array (p.tags.map .string))) :=
    get?_toMembers (by simp [entries])
  have hform : (if p.tags.isEmpty then none else some (.array (p.tags.map .string))) =
      (if p.tags.isEmpty then none else some p.tags).map
        fun texts => Document.array (texts.map .string) := by
    split <;> rfl
  exact Members.strings?_of_get? (hget.trans hform)

theorem parseMembers_toMembers (h : p.Coherent) (working : Path) (file : Option Path)
    {new : Platform} (htechnology : new.technology = p.technology)
    (hbuiltIn : new.builtIn = isBuiltInTechnology p.technology)
    (himmutable : new.immutable = false) :
    parseMembers working p.toMembers file new = .ok (p.reread working file) := by
  have hid := p.text_toMembers "id" (some p.id) (by simp [entries])
  have hcategory := p.text_toMembers "category" p.category (by simp [entries])
  have hname := p.text_toMembers "name" (some p.name) (by simp [entries])
  have hdescription := p.text_toMembers "description" p.description (by simp [entries])
  have hlanguage := p.text_toMembers "language" p.language (by simp [entries])
  have htags : distinctTags ((if p.tags.isEmpty then none else some p.tags).getD []) = p.tags := by
    rw [getD_ite_isEmpty, distinctTags_of_nodup h.tags]
  unfold parseMembers
  simp only [hid, hcategory, hname, hdescription, hlanguage, tags_toMembers,
    parseFolders_toMembers h, parseConfiguration_toMembers h, parseDependencies_toMembers,
    Except.mapError, bind, Except.bind, pure, Except.pure, htags, Option.getD_some]
  rw [reread, htechnology, hbuiltIn, himmutable, h.builtIn]

/-- A platform that has been written is read back. -/
theorem parse_toMembers (h : p.Coherent) (working : Path) (file : Option Path) (n : Nat) :
    (parse working p.toMembers file).run.run n = (.ok (p.reread working file), n + 1) := by
  have htechnology : (parseTechnology p.toMembers).mapError (ExtensionError.format file) =
      .ok p.technology := by
    rw [parseTechnology_toMembers h]
    rfl
  simp only [parse, htechnology]
  rw [Stateful.run_bind_of_ok (Stateful.run_ofExcept _),
    Stateful.run_bind_of_ok (run_new h.technology n), Stateful.run_ofExcept,
    parseMembers_toMembers h working file]
  all_goals rfl

end Platform

/-! ## Manifests -/

namespace Manifest

/-- A manifest of platforms that have all been made. -/
inductive Made : Manifest → Prop
  | new : Made .new
  | parsed {working : Path} {d : Document} {file : Option Path} {m : Manifest} {n n' : Nat}
      (run : (parse working d file).run.run n = (.ok m, n')) : Made m
  | versioned {m : Manifest} (made : Made m) (version : String) : Made { m with version }
  | filled {m : Manifest} (made : Made m) (platforms : List Platform)
      (all : ∀ p ∈ platforms, p.Made) : Made { m with platforms }

theorem of_parseFrame {d : Document} {version : String} {objects : List Members}
    (h : parseFrame d = .ok (version, objects)) :
    ∃ object written, d = .object object ∧ isMarked object = true ∧
      Members.string? object "version" = .ok written ∧
      version = written.getD currentVersion ∧
      Members.get? object "platforms" = some (.array (objects.map .object)) := by
  unfold parseFrame at h
  split at h
  · rename_i object
    by_cases hmarked : isMarked object = true
    · rw [if_neg (by simp [hmarked])] at h
      obtain ⟨written, hversion, h⟩ := exists_of_bind_eq_ok h
      obtain ⟨found, hfound, h⟩ := exists_of_bind_eq_ok h
      cases h
      exact ⟨object, written, rfl, hmarked, mapError_eq_ok_iff.1 hversion, rfl,
        Members.get?_of_objects (mapError_eq_ok_iff.1 hfound)⟩
    · rw [if_pos (by simpa using hmarked)] at h
      cases h
  · cases h

theorem of_run_parse {working : Path} {d : Document} {file : Option Path} {m : Manifest}
    {n n' : Nat} (h : (parse working d file).run.run n = (.ok m, n')) :
    ∃ objects, parseFrame d = .ok (m.version, objects) ∧
      (objects.mapM fun object => Platform.parse working object file).run.run n =
        (.ok m.platforms, n') := by
  unfold parse at h
  obtain ⟨⟨version, objects⟩, between, hframe, hrest⟩ := Stateful.of_run_bind_eq_ok h
  obtain ⟨platforms, last, hplatforms, hlast⟩ := Stateful.of_run_bind_eq_ok hrest
  rw [Stateful.run_ofExcept] at hframe
  have hcount : n = between := congrArg Prod.snd hframe
  subst hcount
  cases hlast
  exact ⟨objects, mapError_eq_ok_iff.1 (congrArg Prod.fst hframe), hplatforms⟩

theorem Made.platforms {m : Manifest} (h : m.Made) : ∀ p ∈ m.platforms, p.Made := by
  induction h with
  | new =>
    intro p hp
    cases hp
  | parsed run =>
    rename_i m _ _
    obtain ⟨objects, -, hplatforms⟩ := of_run_parse run
    have hmade : List.Forall₂ (fun (p : Platform) (_ : Members) => p.Made ∧ True)
        m.platforms objects := by
      apply (Stateful.forall₂_of_run_mapM_eq_ok hplatforms).flip.imp
      rintro p object ⟨before, after, hparsed⟩
      exact ⟨.parsed hparsed, True.intro⟩
    exact ((List.forall₂_and_left _ _).1 hmade).1
  | versioned made version ih => exact ih
  | filled made platforms all ih => exact all

theorem parseFrame_toDocument (m : Manifest) :
    parseFrame m.toDocument = .ok (m.version, m.platforms.map Platform.toMembers) := by
  have hversion : Members.get? [
      ("app", .string manifestApp),
      ("version", .string m.version),
      ("platforms", .array (m.platforms.map fun p => .object p.toMembers))] "version" =
        (some m.version).map .string := rfl
  have hplatforms : Members.get? [
      ("app", .string manifestApp),
      ("version", .string m.version),
      ("platforms", .array (m.platforms.map fun p => .object p.toMembers))] "platforms" =
        some (.array ((m.platforms.map Platform.toMembers).map .object)) := by
    rw [List.map_map]
    rfl
  simp only [parseFrame, toDocument, Members.string?_of_get? hversion,
    Members.objects_of_get? hplatforms]
  rfl

/-- Platforms that have been written are read back one after another. -/
theorem run_mapM_parse {platforms : List Platform} (h : ∀ p ∈ platforms, p.Coherent)
    (working : Path) (file : Option Path) (n : Nat) :
    ((platforms.map Platform.toMembers).mapM fun object =>
      Platform.parse working object file).run.run n =
        (.ok (platforms.map (Platform.reread working file)), n + platforms.length) := by
  induction platforms generalizing n with
  | nil => rfl
  | cons p rest ih =>
    have hfirst := Platform.parse_toMembers (h p List.mem_cons_self) working file n
    have hrest := ih (fun q hq => h q (List.mem_cons_of_mem _ hq)) (n + 1)
    rw [List.map_cons, List.mapM_cons, Stateful.run_bind_of_ok hfirst,
      Stateful.run_bind_of_ok hrest]
    have hcount : n + 1 + rest.length = n + (p :: rest).length := by
      rw [List.length_cons]
      omega
    rw [hcount]
    rfl

/-- A written manifest is read back: the reading succeeds, and gives the same version and platforms
of the same content in the same order. So writing what has been read gives the same document. -/
theorem parse_written_manifest {m : Manifest} (h : m.Made) (working : Path) (file : Option Path)
    (n : Nat) :
    ∃ m', (parse working m.toDocument file).run.run n = (.ok m', n + m.platforms.length) ∧
      m'.version = m.version ∧
      List.Forall₂ Platform.SameContent m'.platforms m.platforms ∧
      m'.toDocument = m.toDocument := by
  have hcoherent : ∀ p ∈ m.platforms, p.Coherent := fun p hp => (h.platforms p hp).coherent
  have hrun := run_mapM_parse hcoherent working file n
  have hsame : List.Forall₂ Platform.SameContent (m.platforms.map (Platform.reread working file))
      m.platforms := by
    rw [List.forall₂_map_left_iff, List.forall₂_same]
    exact fun p _ => p.sameContent_reread working file
  refine ⟨⟨file, m.version, m.platforms.map (Platform.reread working file)⟩, ?_, rfl, hsame, ?_⟩
  · have hframe : (parseFrame m.toDocument).mapError (ExtensionError.format file) =
        .ok (m.version, m.platforms.map Platform.toMembers) := by
      rw [m.parseFrame_toDocument]
      rfl
    unfold parse
    rw [hframe, Stateful.run_bind_of_ok (Stateful.run_ofExcept _),
      Stateful.run_bind_of_ok hrun]
    rfl
  · unfold toDocument
    rw [List.map_map]
    simp only [Function.comp_def, (Platform.sameContent_reread working file _).toMembers_eq]

/-- A sealed platform with tags, a folder and a dependency. -/
def sealedSample : Platform :=
  Platform.makeImmutable {
    id := Platform.generatedId 1
    name := Platform.defaultName
    technology := "JVM"
    builtIn := Platform.isBuiltInTechnology "JVM"
    tags := ["b", "a"]
    folders := { models := some "m" }
    dependencies := [{ id := "d", name := some "D" }] }

theorem made_sealedSample : sealedSample.Made := by
  have hnew := Platform.Made.new (Platform.run_new (by decide : "JVM" ≠ "") 0)
  have htags := hnew.changed (.setTags ["b", "a", "b"]) True.intro rfl
  have hfolder := htags.changed (.inFolders (.setName .models "m")) True.intro rfl
  have hdependency :=
    hfolder.changed (.setDependencies [{ id := "d", name := some "D" }]) True.intro rfl
  exact hdependency.changed .makeImmutable True.intro rfl

theorem parse_written_sealed :
    ∃ m', (parse ⟨"/w"⟩ (toDocument ⟨none, "2.0", [sealedSample]⟩) (some ⟨"/x/e.json"⟩)).run.run 7 =
        (.ok m', 8) ∧
      m'.version = "2.0" ∧
      List.Forall₂ Platform.SameContent m'.platforms [sealedSample] ∧
      m'.toDocument = toDocument ⟨none, "2.0", [sealedSample]⟩ :=
  have hmade : Made ⟨none, "2.0", [sealedSample]⟩ :=
    (Made.new.versioned "2.0").filled [sealedSample] (by simp [made_sealedSample])
  parse_written_manifest hmade ⟨"/w"⟩ (some ⟨"/x/e.json"⟩) 7

end Manifest

end ExecutorHost
