import ExecutorHost.Extension.Manifest
import ExecutorHost.Proofs.Document.Field
import ExecutorHost.Proofs.Event.Journal

/-!
# How platforms are made

A platform is made for a technology or read from a document, and changed after that. Changes are
data here, so that a history of a platform is a sequence of them: its own setters, those of its
folders, those of its dependencies, and sealing any of these. Whatever is made in this way is
coherent: the technology is not empty and says whether it is built in, no tag stands twice, no
declared folder name is empty, and a configuration is the reading of its own source.
-/

namespace ExecutorHost

/-! ## Parts of a platform -/

namespace Dependency

/-- A change of a dependency. -/
inductive Change
  | setId (id : String)
  | setName (name : Option String)
  | setDescription (description : Option String)
  | makeImmutable

/-- The dependency after a change. -/
def Change.apply : Change → Dependency → Except ExtensionError Dependency
  | .setId id, d => d.setId id
  | .setName name, d => d.setName name
  | .setDescription description, d => d.setDescription description
  | .makeImmutable, d => .ok d.makeImmutable

end Dependency

namespace Folders

/-- A change of folders. -/
inductive Change
  | setRoot (working : Path) (root : Option Path)
  | setName (kind : FolderKind) (name : String)
  | makeImmutable

/-- The folders after a change. -/
def Change.apply : Change → Folders → Except ExtensionError Folders
  | .setRoot working root, folders => folders.setRoot working root
  | .setName kind name, folders => folders.setName kind name
  | .makeImmutable, folders => .ok folders.makeImmutable

/-- Folders that come from nothing but a root, from a document or from a change. -/
inductive Made : Folders → Prop
  | rooted (working : Path) (root : Option Path) : Made (Folders.rooted working root)
  | parsed {working : Path} {object : Members} {root : Option Path} {folders : Folders}
      (parse : Folders.parse working object root = .ok folders) : Made folders
  | changed {folders after : Folders} (made : Made folders) (change : Change)
      (apply : change.apply folders = .ok after) : Made after

/-- No declared name is empty. -/
def Named (folders : Folders) : Prop := ∀ kind, folders.declared kind ≠ some ""

theorem named_rooted (working : Path) (root : Option Path) : (rooted working root).Named := by
  intro kind h
  cases kind <;> cases h

theorem ne_empty_of_parseName {object : Members} {kind : FolderKind} {name : Option String}
    (h : parseName object kind = .ok name) : name ≠ some "" := by
  unfold parseName at h
  split at h
  · cases h
  · cases h
  · rename_i hne _
    rintro rfl
    cases h
    exact hne rfl

theorem parseName_of_parse {working : Path} {object : Members} {root : Option Path}
    {folders : Folders} (h : Folders.parse working object root = .ok folders)
    (kind : FolderKind) : parseName object kind = .ok (folders.declared kind) := by
  unfold Folders.parse at h
  obtain ⟨models, hmodels, h⟩ := exists_of_bind_eq_ok h
  obtain ⟨modules, hmodules, h⟩ := exists_of_bind_eq_ok h
  obtain ⟨libraries, hlibraries, h⟩ := exists_of_bind_eq_ok h
  obtain ⟨resources, hresources, h⟩ := exists_of_bind_eq_ok h
  cases h
  cases kind with
  | models => exact hmodels
  | modules => exact hmodules
  | libraries => exact hlibraries
  | resources => exact hresources

theorem named_of_parse {working : Path} {object : Members} {root : Option Path}
    {folders : Folders} (h : Folders.parse working object root = .ok folders) : folders.Named :=
  fun kind => ne_empty_of_parseName (parseName_of_parse h kind)

theorem Named.declare {folders : Folders} (h : folders.Named) {name : String} (hname : name ≠ "")
    (kind : FolderKind) : (folders.declare name kind).Named := by
  intro other
  by_cases heq : other = kind
  · subst heq
    cases other <;> simpa [Folders.declare, declared] using hname
  · have hsame : (folders.declare name kind).declared other = folders.declared other := by
      cases kind <;> cases other <;> first | rfl | exact absurd rfl heq
    rw [hsame]
    exact h other

/-- The root and the seal have nothing to do with the declared names. -/
theorem declared_update (folders : Folders) (root : Option Path) (immutable : Bool)
    (kind : FolderKind) :
    ({ folders with root, immutable } : Folders).declared kind = folders.declared kind := by
  cases kind <;> rfl

theorem Named.update {folders : Folders} (h : folders.Named) (root : Option Path)
    (immutable : Bool) : ({ folders with root, immutable } : Folders).Named := by
  intro kind
  rw [declared_update]
  exact h kind

/-- A name that could be set is not empty, and has been declared. -/
theorem of_setName {folders after : Folders} {kind : FolderKind} {name : String}
    (h : folders.setName kind name = .ok after) :
    name ≠ "" ∧ after = folders.declare name kind := by
  obtain ⟨_, -, hset⟩ := exists_of_bind_eq_ok h
  by_cases hempty : name.isEmpty = true
  · rw [if_pos hempty] at hset
    cases hset
  · rw [if_neg hempty] at hset
    cases hset
    refine ⟨?_, rfl⟩
    rintro rfl
    exact hempty rfl

theorem Named.change {folders after : Folders} (h : folders.Named) {change : Change}
    (happly : change.apply folders = .ok after) : after.Named := by
  cases change with
  | setRoot working root =>
    obtain ⟨_, -, hset⟩ := exists_of_bind_eq_ok happly
    cases hset
    exact h.update _ _
  | setName kind name =>
    obtain ⟨hname, rfl⟩ := of_setName happly
    exact h.declare hname kind
  | makeImmutable =>
    cases happly
    exact h.update _ _

theorem Made.named {folders : Folders} (h : folders.Made) : folders.Named := by
  induction h with
  | rooted working root => exact named_rooted working root
  | parsed parse => exact named_of_parse parse
  | changed made change apply ih => exact ih.change apply

end Folders

namespace Configuration

/-- A configuration without any member, or one that has been read. -/
inductive Made : Configuration → Prop
  | empty : Made .empty
  | parsed {source : Members} {c : Configuration} (parse : Configuration.parse source = .ok c) :
      Made c

theorem source_of_parse {source : Members} {c : Configuration}
    (h : Configuration.parse source = .ok c) : c.source = source := by
  unfold Configuration.parse at h
  obtain ⟨classpath, -, h⟩ := exists_of_bind_eq_ok h
  obtain ⟨vmOptions, -, h⟩ := exists_of_bind_eq_ok h
  obtain ⟨requireExistingPaths, -, h⟩ := exists_of_bind_eq_ok h
  cases h
  rfl

/-- A configuration is what is read from its source. -/
theorem Made.parse_source {c : Configuration} (h : c.Made) :
    Configuration.parse c.source = .ok c := by
  cases h with
  | empty => rfl
  | parsed parse =>
    rw [source_of_parse parse]
    exact parse

end Configuration

namespace Platform

/-! ## Tags -/

theorem nodup_distinctTags (tags : List String) : (distinctTags tags).Nodup := by
  have hfold : ∀ (rest seen : List String), seen.Nodup → (rest.foldl addTag seen).Nodup := by
    intro rest
    induction rest with
    | nil => exact fun seen h => h
    | cons tag rest ih =>
      intro seen h
      rw [List.foldl_cons]
      apply ih
      unfold addTag
      split
      · exact h
      · rename_i hnew
        rw [← List.concat_eq_append, List.nodup_concat]
        exact ⟨hnew, h⟩
  exact hfold tags [] .nil

/-- Tags without repetitions are left as they are. -/
theorem distinctTags_of_nodup {tags : List String} (h : tags.Nodup) : distinctTags tags = tags := by
  have hfold : ∀ (rest seen : List String), (seen ++ rest).Nodup →
      rest.foldl addTag seen = seen ++ rest := by
    intro rest
    induction rest with
    | nil => simp
    | cons tag rest ih =>
      intro seen hall
      have hnew : tag ∉ seen := by
        intro hmem
        rw [List.nodup_append] at hall
        exact hall.2.2 tag hmem tag List.mem_cons_self rfl
      rw [List.foldl_cons, addTag, if_neg hnew, ih]
      · simp
      · simpa using hall
  exact hfold tags [] h

/-! ## Changes -/

/-- A change of a platform, of its folders or of one of its dependencies. -/
inductive Change
  | setId (id : String)
  | setCategory (category : Option String)
  | setName (name : String)
  | setDescription (description : Option String)
  | setTags (tags : List String)
  | setTechnology (technology : String)
  | setLanguage (language : Option String)
  | setFolders (folders : Folders)
  | setConfiguration (configuration : Configuration)
  | setDependencies (dependencies : List Dependency)
  | inFolders (change : Folders.Change)
  | inDependency (index : Nat) (change : Dependency.Change)
  | makeImmutable

/-- The platform after a change; nothing if the change is of a dependency that is not there. -/
def Change.apply : Change → Platform → Option (Except ExtensionError Platform)
  | .setId id, p => some (p.setId id)
  | .setCategory category, p => some (p.setCategory category)
  | .setName name, p => some (p.setName name)
  | .setDescription description, p => some (p.setDescription description)
  | .setTags tags, p => some (p.setTags tags)
  | .setTechnology technology, p => some (p.setTechnology technology)
  | .setLanguage language, p => some (p.setLanguage language)
  | .setFolders folders, p => some (p.setFolders folders)
  | .setConfiguration configuration, p => some (p.setConfiguration configuration)
  | .setDependencies dependencies, p => some (p.setDependencies dependencies)
  | .inFolders change, p => some (p.changeFolders change.apply)
  | .inDependency index change, p => p.changeDependency index change.apply
  | .makeImmutable, p => some (.ok p.makeImmutable)

/-- Folders and a configuration that a change puts in have been made before. -/
def Change.Admissible : Change → Prop
  | .setFolders folders => folders.Made
  | .setConfiguration configuration => configuration.Made
  | _ => True

/-- A platform that comes from a technology, from a document or from a change. -/
inductive Made : Platform → Prop
  | new {technology : String} {p : Platform} {n n' : Nat}
      (run : (Platform.new technology).run.run n = (.ok p, n')) : Made p
  | parsed {working : Path} {object : Members} {file : Option Path} {p : Platform} {n n' : Nat}
      (run : (Platform.parse working object file).run.run n = (.ok p, n')) : Made p
  | changed {p after : Platform} (made : Made p) (change : Change)
      (admissible : change.Admissible) (apply : change.apply p = some (.ok after)) : Made after

/-- What holds of every platform that has been made. -/
structure Coherent (p : Platform) : Prop where
  technology : p.technology ≠ ""
  builtIn : p.builtIn = isBuiltInTechnology p.technology
  tags : p.tags.Nodup
  folders : p.folders.Named
  configuration : Configuration.parse p.configuration.source = .ok p.configuration

variable {p after : Platform}

theorem eq_of_change {f : Platform → Platform} (h : p.change f = .ok after) : after = f p := by
  obtain ⟨_, -, hset⟩ := exists_of_bind_eq_ok h
  cases hset
  rfl

/-- A technology that could be set is not empty, and says whether the platform is built in. -/
theorem of_setTechnology {technology : String} (h : p.setTechnology technology = .ok after) :
    technology ≠ "" ∧
      after = { p with technology, builtIn := isBuiltInTechnology technology } := by
  obtain ⟨_, -, hset⟩ := exists_of_bind_eq_ok h
  by_cases hempty : technology.isEmpty = true
  · rw [if_pos hempty] at hset
    cases hset
  · rw [if_neg hempty] at hset
    cases hset
    refine ⟨?_, rfl⟩
    rintro rfl
    exact hempty rfl

theorem Coherent.change (h : p.Coherent) {change : Change} (hadmissible : change.Admissible)
    (happly : change.apply p = some (.ok after)) : after.Coherent := by
  cases change with
  | setId _ | setCategory _ | setName _ | setDescription _ | setLanguage _ | setDependencies _ =>
    rw [eq_of_change (Option.some.inj happly)]
    exact ⟨h.technology, h.builtIn, h.tags, h.folders, h.configuration⟩
  | setTags tags =>
    rw [eq_of_change (Option.some.inj happly)]
    exact ⟨h.technology, h.builtIn, nodup_distinctTags tags, h.folders, h.configuration⟩
  | setTechnology technology =>
    obtain ⟨hname, rfl⟩ := of_setTechnology (Option.some.inj happly)
    exact ⟨hname, rfl, h.tags, h.folders, h.configuration⟩
  | setFolders folders =>
    rw [eq_of_change (Option.some.inj happly)]
    have hmade : folders.Made := hadmissible
    exact ⟨h.technology, h.builtIn, h.tags, hmade.named, h.configuration⟩
  | setConfiguration configuration =>
    rw [eq_of_change (Option.some.inj happly)]
    have hmade : configuration.Made := hadmissible
    exact ⟨h.technology, h.builtIn, h.tags, h.folders, hmade.parse_source⟩
  | inFolders change =>
    obtain ⟨folders, hchange, hset⟩ := exists_of_bind_eq_ok (Option.some.inj happly)
    cases hset
    exact ⟨h.technology, h.builtIn, h.tags, h.folders.change hchange, h.configuration⟩
  | inDependency index change =>
    obtain ⟨d, -, hset⟩ := Option.map_eq_some_iff.1 happly
    obtain ⟨d', -, hset⟩ := exists_of_bind_eq_ok hset
    cases hset
    exact ⟨h.technology, h.builtIn, h.tags, h.folders, h.configuration⟩
  | makeImmutable =>
    cases happly
    exact ⟨h.technology, h.builtIn, h.tags, h.folders.update _ _, h.configuration⟩

/-! ## Beginnings -/

theorem run_new {technology : String} (h : technology ≠ "") (n : Nat) :
    (new technology).run.run n =
      (.ok { id := generatedId (n + 1), name := defaultName, technology,
             builtIn := isBuiltInTechnology technology }, n + 1) := by
  have hempty : ¬technology.isEmpty = true := by
    intro hempty
    exact h (String.isEmpty_iff.1 hempty)
  have hid : (freshId (ε := ExtensionError)).run.run n = (.ok (generatedId (n + 1)), n + 1) := rfl
  unfold new
  rw [Stateful.run_bind_of_ok hid, if_neg hempty]
  rfl

/-- A platform could only be made for a technology that is not empty. -/
theorem of_run_new {technology : String} {n n' : Nat}
    (h : (new technology).run.run n = (.ok p, n')) :
    technology ≠ "" ∧ n' = n + 1 ∧
      p = { id := generatedId (n + 1), name := defaultName, technology,
            builtIn := isBuiltInTechnology technology } := by
  by_cases hempty : technology = ""
  · have hfailed : (new "").run.run n = (.error (.emptyField "technology"), n + 1) := rfl
    rw [hempty, hfailed] at h
    cases h
  · rw [run_new hempty] at h
    cases h
    exact ⟨hempty, rfl, rfl⟩

theorem coherent_of_new {technology : String} {n n' : Nat}
    (h : (new technology).run.run n = (.ok p, n')) : p.Coherent := by
  obtain ⟨htechnology, -, rfl⟩ := of_run_new h
  exact ⟨htechnology, rfl, .nil, Folders.named_rooted ⟨""⟩ none, rfl⟩

theorem named_of_parseFolders {working : Path} {object : Members} {root : Option Path}
    {folders : Folders} (h : parseFolders working object root = .ok folders) : folders.Named := by
  unfold parseFolders at h
  obtain ⟨declared, -, h⟩ := exists_of_bind_eq_ok h
  cases declared with
  | none =>
    cases h
    exact Folders.named_rooted working root
  | some declared => exact Folders.named_of_parse h

theorem made_of_parseConfiguration {object : Members} {configuration : Configuration}
    (h : parseConfiguration object = .ok configuration) : configuration.Made := by
  unfold parseConfiguration at h
  obtain ⟨source, -, h⟩ := exists_of_bind_eq_ok h
  cases source with
  | none =>
    cases h
    exact .empty
  | some source => exact .parsed h

/-- Where each part of a platform that is read comes from: its document, or the platform that the
members are put into. -/
structure Filled (working : Path) (object : Members) (manifest : Option Path) (new p : Platform) :
    Prop where
  file : p.file = manifest
  id : ∃ id, Members.string? object "id" = .ok id ∧ p.id = id.getD new.id
  category : Members.string? object "category" = .ok p.category
  name : ∃ name, Members.string? object "name" = .ok name ∧ p.name = name.getD new.name
  description : Members.string? object "description" = .ok p.description
  tags : ∃ tags, Members.strings? object "tags" = .ok tags ∧ p.tags = distinctTags (tags.getD [])
  technology : p.technology = new.technology
  builtIn : p.builtIn = new.builtIn
  language : Members.string? object "language" = .ok p.language
  folders : parseFolders working object (manifest.bind Path.parent?) = .ok p.folders
  configuration : parseConfiguration object = .ok p.configuration
  dependencies : parseDependencies object = .ok p.dependencies
  immutable : p.immutable = new.immutable

theorem filled_of_parseMembers {working : Path} {object : Members} {file : Option Path}
    {new : Platform} (h : parseMembers working object file new = .ok p) :
    Filled working object file new p := by
  unfold parseMembers at h
  obtain ⟨id, hid, h⟩ := exists_of_bind_eq_ok h
  obtain ⟨category, hcategory, h⟩ := exists_of_bind_eq_ok h
  obtain ⟨name, hname, h⟩ := exists_of_bind_eq_ok h
  obtain ⟨description, hdescription, h⟩ := exists_of_bind_eq_ok h
  obtain ⟨tags, htags, h⟩ := exists_of_bind_eq_ok h
  obtain ⟨language, hlanguage, h⟩ := exists_of_bind_eq_ok h
  obtain ⟨folders, hfolders, h⟩ := exists_of_bind_eq_ok h
  obtain ⟨configuration, hconfiguration, h⟩ := exists_of_bind_eq_ok h
  obtain ⟨dependencies, hdependencies, h⟩ := exists_of_bind_eq_ok h
  cases h
  exact {
    file := rfl
    id := ⟨id, mapError_eq_ok_iff.1 hid, rfl⟩
    category := mapError_eq_ok_iff.1 hcategory
    name := ⟨name, mapError_eq_ok_iff.1 hname, rfl⟩
    description := mapError_eq_ok_iff.1 hdescription
    tags := ⟨tags, mapError_eq_ok_iff.1 htags, rfl⟩
    technology := rfl
    builtIn := rfl
    language := mapError_eq_ok_iff.1 hlanguage
    folders := hfolders
    configuration := mapError_eq_ok_iff.1 hconfiguration
    dependencies := mapError_eq_ok_iff.1 hdependencies
    immutable := rfl }

/-- A platform that is read has been made for a technology first. -/
theorem of_run_parse {working : Path} {object : Members} {file : Option Path} {n n' : Nat}
    (h : (parse working object file).run.run n = (.ok p, n')) :
    ∃ technology made, parseTechnology object = .ok technology ∧
      (new technology).run.run n = (.ok made, n') ∧ Filled working object file made p := by
  unfold parse at h
  obtain ⟨technology, between, htechnology, hrest⟩ := Stateful.of_run_bind_eq_ok h
  obtain ⟨made, made', hmade, hmembers⟩ := Stateful.of_run_bind_eq_ok hrest
  rw [Stateful.run_ofExcept] at htechnology hmembers
  have hcount : n = between := congrArg Prod.snd htechnology
  have hcount' : made' = n' := congrArg Prod.snd hmembers
  subst hcount hcount'
  have hfilled := mapError_eq_ok_iff.1 (congrArg Prod.fst hmembers)
  have hread := mapError_eq_ok_iff.1 (congrArg Prod.fst htechnology)
  exact ⟨technology, made, hread, hmade, filled_of_parseMembers hfilled⟩

theorem Coherent.filled {new : Platform} (hnew : new.Coherent) {working : Path} {object : Members}
    {file : Option Path} (h : Filled working object file new p) : p.Coherent where
  technology := h.technology ▸ hnew.technology
  builtIn := by
    rw [h.builtIn, h.technology]
    exact hnew.builtIn
  tags := by
    obtain ⟨tags, -, htags⟩ := h.tags
    rw [htags]
    exact nodup_distinctTags _
  folders := named_of_parseFolders h.folders
  configuration := (made_of_parseConfiguration h.configuration).parse_source

theorem coherent_of_parse {working : Path} {object : Members} {file : Option Path} {n n' : Nat}
    (h : (parse working object file).run.run n = (.ok p, n')) : p.Coherent := by
  obtain ⟨technology, made, -, hmade, hfilled⟩ := of_run_parse h
  exact (coherent_of_new hmade).filled hfilled

/-- Every platform is coherent, however it has been made. -/
theorem Made.coherent (h : p.Made) : p.Coherent := by
  induction h with
  | new run => exact coherent_of_new run
  | parsed run => exact coherent_of_parse run
  | changed made change admissible apply ih => exact ih.change admissible apply

/-! ## Seals -/

/-- Nothing of the platform can be changed any more. -/
structure Sealed (p : Platform) : Prop where
  platform : p.immutable = true
  folders : p.folders.immutable = true
  dependencies : ∀ d ∈ p.dependencies, d.immutable = true

theorem sealed_makeImmutable (p : Platform) : p.makeImmutable.Sealed where
  platform := rfl
  folders := rfl
  dependencies := by
    intro d hd
    obtain ⟨d', -, rfl⟩ := List.mem_map.1 hd
    rfl

end Platform

end ExecutorHost
