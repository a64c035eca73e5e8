import ExecutorHost.Extension.Registry
import ExecutorHost.Host.Configuration
import ExecutorHost.Models
import ExecutorHost.Settings.Combiner
import ExecutorHost.Settings.Search

/-!
# Hosts

A host holds what the configured extensions contribute: platforms, executor specifications, a
combiner for every settings specification, and mappings. Building one stops at the first error.
-/

namespace ExecutorHost

/-- What the configured extensions contribute. -/
structure Host where
  /-- The platforms of all manifests. -/
  platforms : Registry := .empty
  /-- The executor specifications of all models folders. -/
  specifications : Loader Specification := .empty
  /-- A combiner for every settings specification. -/
  combiners : Combiners := .empty
  /-- The mappings of all models folders. -/
  mappings : Loader Mapping := .empty
  /-- The settings search, if it was to be made. -/
  search : Option SettingsSearch := none

namespace Host

/-! ## Extension folders -/

/--
What two spellings of one folder have in common: the components of its real path, or of its absolute
path if it is not there.
-/
def identity (tree : FileTree) (folder : Path) : List Component :=
  match tree.canonical folder with
  | .ok real => real.components
  | .error _ =>
    if folder.text.isEmpty then folder.components else (folder.absolute tree.working).components

/-- The folders without those that another spelling stands for already. -/
def distinctFolders (tree : FileTree) (seen : List (List Component)) : List Path → List Path
  | [] => []
  | folder :: rest =>
    let id := identity tree folder
    if id ∈ seen then distinctFolders tree seen rest
    else folder :: distinctFolders tree (id :: seen) rest

/-- The configured extension folders and then those found below the roots, each once. -/
def extensionFolders (tree : FileTree) (c : HostConfiguration) :
    Logged ExtensionError (List Path) := do
  let found ← c.roots.mapM (Manifest.discoverFolders tree)
  return distinctFolders tree [] (c.folders ++ found.flatten)

/-- The platforms of the manifests in extension folders. -/
def registerFolders (tree : FileTree) (folders : List Path) : Logged ExtensionError Registry :=
  folders.foldlM
    (fun platforms folder => do
      let manifest ← Manifest.loadFolder tree folder
      return (← platforms.register manifest.platforms).1)
    Registry.empty

/-- The platforms of the configured extensions, with their resource paths checked if need be. -/
def loadPlatforms (tree : FileTree) (c : HostConfiguration) : Logged ExtensionError Registry := do
  let platforms ← registerFolders tree (← extensionFolders tree c)
  if c.checkResourcePaths then platforms.checkResourcePaths tree
  return platforms

/-! ## Models -/

/-- The executor specifications and the mappings of models folders. -/
def loadModels (tree : FileTree) (folders : List Path) :
    Logged WorkerError (Loader Specification × Loader Mapping) :=
  folders.foldlM
    (fun (specifications, mappings) folder => do
      let enter (loader : Loader Specification) (s : Specification) := loader.register s.id s
      let (specifications, _) ← Models.loadSpecifications tree folder enter specifications
      let (mappings, _) ← Models.loadMappings tree folder mappings
      return (specifications, mappings))
    (IdMap.empty, IdMap.empty)

/-! ## Settings -/

/-- A search made and reported. -/
def searchSettings (search : SettingsSearch) (specifications : Loader Specification) :
    Logged SettingsError SettingsSearch := do
  let (search, result) := search.run specifications
  (SettingsSearch.runEvents result).forM Logged.report
  discard <| MonadExcept.ofExcept result
  return search

/-- The settings search of a host, which must be complete if that is required. -/
def completeSearch (c : HostConfiguration) (specifications : Loader Specification) :
    Logged HostError SettingsSearch := do
  let search ← (searchSettings {} specifications).mapError .settings
  let unresolved := (search.result.map (·.unresolved)).getD []
  if c.requireComplete && !search.isComplete then throw (.incompleteSettings unresolved)
  return search

/-! ## Hosts -/

/-- The host of a configuration. -/
def build (tree : FileTree) (c : HostConfiguration) : Logged HostError Host := do
  let platforms ← (loadPlatforms tree c).mapError .extension
  let folders ← MonadExcept.ofExcept (platforms.modelsFolders.mapError .extension)
  let (specifications, mappings) ← (loadModels tree folders).mapError .worker
  let (combiners, _) ← Combiner.registerAll specifications .empty
  let search ← if c.smartSearch then some <$> completeSearch c specifications else pure none
  return { platforms, specifications, combiners, mappings, search }

/-- The host of a configuration file. -/
def load (tree : FileTree) (file : Path) : Logged HostError Host := do
  build tree (← HostConfiguration.load tree file)

end Host

end ExecutorHost
