import ExecutorHost.Event.Journal
import ExecutorHost.Extension.Configuration
import ExecutorHost.Extension.Dependency
import ExecutorHost.Extension.Folders
import ExecutorHost.Text.Case

/-!
# Platforms

One execution technology that an extension contributes, as one element of its manifest describes it.
Sealing a platform seals its folders and all its dependencies as well, and after that no change of
any of them succeeds. Each platform made takes a fresh generated id first, which its document may
replace by an id of its own.
-/

namespace ExecutorHost

/-- An execution technology contributed by an extension. -/
structure Platform where
  /-- The manifest that the platform was read from. -/
  file : Option Path := none
  /-- The id, unique in a registry. -/
  id : String
  /-- A category to group platforms by. -/
  category : Option String := none
  /-- A name to show. -/
  name : String
  /-- What the platform is for. -/
  description : Option String := none
  /-- Tags in the order in which they first came, none twice. -/
  tags : List String := []
  /-- The name of the technology. -/
  technology : String
  /-- The technology runs inside the host. -/
  builtIn : Bool
  /-- The programming language of the executors. -/
  language : Option String := none
  /-- The declared folders. -/
  folders : Folders := {}
  /-- The configuration of the technology. -/
  configuration : Configuration := .empty
  /-- The platforms that this one relies on. -/
  dependencies : List Dependency := []
  /-- The platform is sealed. -/
  immutable : Bool := false
deriving Repr, Inhabited

namespace Platform

/-- The technology that runs inside the host. -/
def builtInTechnology : String := "jvm"

/-- The name of a platform whose document gives none. -/
def defaultName : String := "Unnamed"

/-- A technology runs inside the host. -/
def isBuiltInTechnology (technology : String) : Bool :=
  Text.sameIgnoringCase technology builtInTechnology

/-- The n-th generated id. Its number has 64 bits, so that after the last one the numbers begin
again. The ending keeps the id apart from ids written by hand. -/
def generatedId (n : Nat) : String :=
  s!"_dynamic_id_{n.toUInt64}--3f8b1c52-7d4e-4a9b-b6c1-0e2d5f9a8c47"

/-- A fresh generated id. -/
def freshId {ε : Type} : Generating ε String := do
  let n := (← get) + 1
  set n
  return generatedId n

/-- Tags with one added at the end, unless it is among them. -/
def addTag (tags : List String) (tag : String) : List String :=
  if tag ∈ tags then tags else tags ++ [tag]

/-- Tags without repetitions, in the order in which they first came. -/
def distinctTags (tags : List String) : List String := tags.foldl addTag []

/-- A platform of a technology, with everything else left open. The technology must not be empty. -/
def new (technology : String) : Generating ExtensionError Platform := do
  let id ← freshId
  if technology.isEmpty then throw (.emptyField "technology")
  return { id, name := defaultName, technology, builtIn := isBuiltInTechnology technology }

/-! ## Reading and writing -/

/-- The folders of a platform's document; without a declaration there is only the root. -/
def parseFolders (working : Path) (object : Members) (root : Option Path) :
    Except ManifestFault Folders := do
  match ← (Members.object? object "folders").mapError .field with
  | some declared => Folders.parse working declared root
  | none => return Folders.rooted working root

/-- The configuration of a platform's document. -/
def parseConfiguration (object : Members) : Except FieldError Configuration := do
  match ← Members.object? object "configuration" with
  | some source => Configuration.parse source
  | none => return .empty

/-- The dependencies of a platform's document. -/
def parseDependencies (object : Members) : Except FieldError (List Dependency) := do
  match ← Members.objects? object "dependencies" with
  | some objects => objects.mapM Dependency.parse
  | none => return []

/-- The technology of a platform's document. -/
def parseTechnology (object : Members) : Except ManifestFault String := do
  let technology ← (Members.string object "technology").mapError .field
  if technology.isEmpty then .error .emptyTechnology
  return technology

/-- The members of a platform's document put into a new platform, in the order of their reading. -/
def parseMembers (working : Path) (object : Members) (file : Option Path) (new : Platform) :
    Except ManifestFault Platform := do
  let text (key : String) : Except ManifestFault (Option String) :=
    (Members.string? object key).mapError .field
  let id ← text "id"
  let category ← text "category"
  let name ← text "name"
  let description ← text "description"
  let tags ← (Members.strings? object "tags").mapError .field
  let language ← text "language"
  let folders ← parseFolders working object (file.bind Path.parent?)
  let configuration ← (parseConfiguration object).mapError .field
  let dependencies ← (parseDependencies object).mapError .field
  return { new with
    file, category, description, language, folders, configuration, dependencies
    id := id.getD new.id
    name := name.getD new.name
    tags := distinctTags (tags.getD []) }

/--
The platform that one element of a manifest describes. The folders start from the folder of the
manifest file, whether any are declared or not. The technology is read before an id is generated,
everything else after.
-/
def parse (working : Path) (object : Members) (file : Option Path) :
    Generating ExtensionError Platform := do
  let format {α : Type} (part : Except ManifestFault α) : Generating ExtensionError α :=
    MonadExcept.ofExcept (part.mapError (.format file))
  let new ← new (← format (parseTechnology object))
  format (parseMembers working object file new)

/-- The written form. -/
def toMembers (p : Platform) : Members :=
  let list {α : Type} (items : List α) (form : α → Document) : Option Document :=
    if items.isEmpty then none else some (.array (items.map form))
  let entries : List (String × Option Document) := [
    ("id", some (.string p.id)),
    ("category", p.category.map .string),
    ("name", some (.string p.name)),
    ("description", p.description.map .string),
    ("tags", list p.tags .string),
    ("technology", some (.string p.technology)),
    ("language", p.language.map .string),
    ("folders", some (.object p.folders.toMembers)),
    ("configuration", some (.object p.configuration.toMembers)),
    ("dependencies", list p.dependencies fun d => .object d.toMembers)]
  entries.filterMap fun (key, value) => value.map (key, ·)

/-! ## Changes -/

/-- Refuses a change of a sealed platform. -/
def checkMutable (p : Platform) : Except ExtensionError Unit :=
  if p.immutable then .error (.immutableState .platform) else .ok ()

/-- A change, refused if the platform is sealed. -/
def change (p : Platform) (f : Platform → Platform) : Except ExtensionError Platform := do
  p.checkMutable
  return f p

/-- The platform with another id. -/
def setId (p : Platform) (id : String) : Except ExtensionError Platform :=
  p.change fun p => { p with id }

/-- The platform with another category. -/
def setCategory (p : Platform) (category : Option String) : Except ExtensionError Platform :=
  p.change fun p => { p with category }

/-- The platform with another name. -/
def setName (p : Platform) (name : String) : Except ExtensionError Platform :=
  p.change fun p => { p with name }

/-- The platform with another description. -/
def setDescription (p : Platform) (description : Option String) :
    Except ExtensionError Platform :=
  p.change fun p => { p with description }

/-- The platform with other tags; repetitions are dropped. -/
def setTags (p : Platform) (tags : List String) : Except ExtensionError Platform :=
  p.change fun p => { p with tags := distinctTags tags }

/-- The platform with another technology, which must not be empty. -/
def setTechnology (p : Platform) (technology : String) : Except ExtensionError Platform := do
  p.checkMutable
  if technology.isEmpty then .error (.emptyField "technology")
  return { p with technology, builtIn := isBuiltInTechnology technology }

/-- The platform with another language. -/
def setLanguage (p : Platform) (language : Option String) : Except ExtensionError Platform :=
  p.change fun p => { p with language }

/-- The platform with other folders. -/
def setFolders (p : Platform) (folders : Folders) : Except ExtensionError Platform :=
  p.change fun p => { p with folders }

/-- The platform with another configuration. -/
def setConfiguration (p : Platform) (configuration : Configuration) :
    Except ExtensionError Platform :=
  p.change fun p => { p with configuration }

/-- The platform with other dependencies. -/
def setDependencies (p : Platform) (dependencies : List Dependency) :
    Except ExtensionError Platform :=
  p.change fun p => { p with dependencies }

/--
The platform after a change of its folders. The folders refuse the change themselves if they are
sealed.
-/
def changeFolders (p : Platform) (f : Folders → Except ExtensionError Folders) :
    Except ExtensionError Platform := do
  return { p with folders := ← f p.folders }

/--
The platform after a change of one dependency, or nothing if there is none at the index. The
dependency refuses the change itself if it is sealed.
-/
def changeDependency (p : Platform) (index : Nat)
    (f : Dependency → Except ExtensionError Dependency) :
    Option (Except ExtensionError Platform) :=
  p.dependencies[index]?.map fun d => do
    return { p with dependencies := p.dependencies.set index (← f d) }

/-- The platform sealed, together with its folders and all its dependencies. -/
def makeImmutable (p : Platform) : Platform :=
  { p with
    immutable := true
    folders := p.folders.makeImmutable
    dependencies := p.dependencies.map Dependency.makeImmutable }

/-! ## Resource paths -/

/-- An entry of the resource paths that is a pattern and names no file. -/
def isPattern (entry : String) : Bool := '*' ∈ entry.toList

/-- The resource paths that name files, made absolute. -/
def resourcePaths (p : Platform) : Except ExtensionError (List Path) :=
  (p.configuration.classpath.filter (!isPattern ·)).mapM p.folders.resolve

/-- Fails at the first resource path that does not exist, if the configuration requires them all. -/
def checkResourcePaths (p : Platform) (tree : FileTree) : Except ExtensionError Unit := do
  if p.configuration.requireExistingPaths then
    match (← p.resourcePaths).find? (!tree.contains ·) with
    | some path =>
      .error (.missingResourcePath p.file (path.absolute tree.working) p.configuration.classpath)
    | none => return

end Platform

end ExecutorHost
