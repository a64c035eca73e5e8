import ExecutorHost.Document.Basic
import ExecutorHost.Duration

/-!
# Events

What the host reports while it works. An event has a level, a text and named fields; it can also
open a span, which carries some of the fields under a name.
-/

namespace ExecutorHost

/-- How important an event is. -/
inductive Level
  /-- Finest detail. -/
  | trace
  /-- Detail for diagnosis. -/
  | debug
  /-- A step of normal work. -/
  | info
  /-- Something to look at. -/
  | warn
  /-- A failure. -/
  | error
deriving DecidableEq, Repr

/-- The level's name in records. -/
def Level.name : Level → String
  | .trace => "TRACE"
  | .debug => "DEBUG"
  | .info => "INFO"
  | .warn => "WARN"
  | .error => "ERROR"

/-- A report of the host. Files, folders and errors are given by their texts. -/
inductive Event
  /-- A manifest was read. -/
  | manifestLoaded (file : String) (platformCount : Nat)
  /-- A document is not a manifest. -/
  | manifestSkipped (file : String)
  /-- A manifest could not be read. -/
  | manifestLoadFailed (file error : String)
  /-- The extension folders under a root were looked up. -/
  | extensionFoldersDiscovered (root : String) (folderCount : Nat)
  /-- A platform entered the registry. -/
  | platformRegistered (platformId technology : String) (builtIn : Bool)
  /-- A platform was refused because its id is taken. -/
  | duplicatePlatformId (platformId : String)
  /-- The resource paths of a platform exist. -/
  | resourcePathsChecked (platformId : String) (pathCount : Nat)
  /-- A worker entered a loader. -/
  | workerRegistered (workerId : String) (replaced : Bool)
  /-- A worker left a loader. -/
  | workerRemoved (workerId : String)
  /-- A slot took its private copy of a worker. -/
  | workerInstantiated (workerId : String)
  /-- The specifications of a folder were read. -/
  | specificationsLoaded (folder : String) (count : Nat)
  /-- A document is not a specification. -/
  | specificationSkipped (file : String)
  /-- A specification could not be read. -/
  | specificationLoadFailed (file error : String)
  /-- The mappings of a folder were read. -/
  | mappingsLoaded (folder : String) (count : Nat)
  /-- A mapping could not be read. -/
  | mappingLoadFailed (file error : String)
  /-- A mapping was made from parameters. -/
  | mappingCreated (mappingName : String) (duration : Duration) (mapping : String)
  /-- A combiner was made. -/
  | settingsCombinerCreated (settingsId settingsName : String) (controlCount : Nat)
  /-- Settings were combined. -/
  | settingsCombined (settingsName : String) (duration : Duration)
  /-- Settings were split. -/
  | settingsSplit (settingsName : String) (duration : Duration)
  /-- A settings search ended. -/
  | settingsSearchCompleted (settingsCount unresolvedCount : Nat) (hasDuplicates : Bool)
  /-- A settings search left references unresolved. -/
  | settingsSearchIncomplete (unresolved : List String)
  /-- Two settings share a name. -/
  | duplicateSettingsName (settingsName firstId secondId : String)
  /-- Settings refer to each other in a circle. -/
  | settingsCycleDetected (cycle : List String)
  /-- A host configuration was read. -/
  | configLoaded (path : String) (rootCount folderCount : Nat)
  /-- The host is ready for work. -/
  | hostReady (platformCount specificationCount combinerCount mappingCount : Nat)
      (duration : Duration)
deriving DecidableEq, Repr

namespace Event

/-- The text of a duration in milliseconds with three places. -/
def millisecondsText (d : Duration) : String := d.milliseconds.fixedMagnitude 3

/-- The texts of unresolved references, joined. -/
def joinUnresolved (unresolved : List String) : String := ", ".intercalate unresolved

/-- The ids of a cycle, joined. -/
def joinCycle (cycle : List String) : String := " -> ".intercalate cycle

/-- How important the event is. -/
def level : Event → Level
  | .manifestLoadFailed .. | .duplicatePlatformId .. | .specificationLoadFailed ..
  | .mappingLoadFailed .. | .settingsCycleDetected .. => .error
  | .settingsSearchIncomplete .. | .duplicateSettingsName .. => .warn
  | .extensionFoldersDiscovered .. | .specificationsLoaded .. | .mappingsLoaded ..
  | .settingsSearchCompleted .. | .configLoaded .. | .hostReady .. => .info
  | .manifestLoaded .. | .manifestSkipped .. | .platformRegistered .. | .resourcePathsChecked ..
  | .workerRegistered .. | .workerRemoved .. | .workerInstantiated .. | .specificationSkipped ..
  | .mappingCreated .. | .settingsCombinerCreated .. | .settingsCombined .. | .settingsSplit .. =>
    .debug

/-- The event in words. -/
def text : Event → String
  | .manifestLoaded file count => s!"Loaded extension manifest {file} with {count} platform(s)"
  | .manifestSkipped file => s!"Skipping {file}: not an extension manifest"
  | .manifestLoadFailed file error => s!"Failed to load extension manifest '{file}': {error}"
  | .extensionFoldersDiscovered root count =>
    s!"Discovered {count} extension folder(s) under {root}"
  | .platformRegistered id technology builtIn =>
    let remark := if builtIn then ", built-in" else ""
    s!"Registered platform '{id}' (technology: {technology}{remark})"
  | .duplicatePlatformId id => s!"Duplicate platform ID: '{id}'"
  | .resourcePathsChecked id count => s!"Checked {count} resource path(s) of platform '{id}'"
  | .workerRegistered id replaced =>
    if replaced then s!"Replaced registered worker: {id}" else s!"Registered worker: {id}"
  | .workerRemoved id => s!"Removed worker: {id}"
  | .workerInstantiated id => s!"Instantiated private copy of worker: {id}"
  | .specificationsLoaded folder count =>
    s!"Loaded {count} executor specification(s) from {folder}"
  | .specificationSkipped file => s!"Skipping {file}: not an executor specification"
  | .specificationLoadFailed file error =>
    s!"Failed to load executor specification '{file}': {error}"
  | .mappingsLoaded folder count => s!"Loaded {count} mapping(s) from {folder}"
  | .mappingLoadFailed file error => s!"Failed to load mapping '{file}': {error}"
  | .mappingCreated name duration _ =>
    s!"Making mapping \"{name}\": {millisecondsText duration} ms"
  | .settingsCombinerCreated id name count =>
    s!"Created settings combiner \"{name}\" ({id}) with {count} control(s)"
  | .settingsCombined name duration =>
    s!"Combining settings \"{name}\": {millisecondsText duration} ms"
  | .settingsSplit name duration =>
    s!"Splitting settings \"{name}\": {millisecondsText duration} ms"
  | .settingsSearchCompleted settings unresolved _ =>
    s!"Smart settings search found {settings} settings specification(s), " ++
      s!"{unresolved} unresolved reference(s)"
  | .settingsSearchIncomplete unresolved =>
    "Smart settings search is incomplete, unresolved sub-settings: " ++ joinUnresolved unresolved
  | .duplicateSettingsName name first second =>
    s!"Settings name \"{name}\" is used by both '{first}' and '{second}'"
  | .settingsCycleDetected cycle => "Settings reference cycle detected: " ++ joinCycle cycle
  | .configLoaded path roots folders =>
    s!"Loaded runtime config {path} ({roots} extension root(s), {folders} extension folder(s))"
  | .hostReady platforms specifications combiners mappings duration =>
    s!"Runtime ready in {duration.text}: {platforms} platform(s), " ++
      s!"{specifications} executor specification(s), {combiners} settings combiner(s), " ++
      s!"{mappings} mapping(s)"

/-- A text field. -/
def textField (name value : String) : String × Document := (name, .string value)

/-- A count field. -/
def countField (name : String) (value : Nat) : String × Document := (name, .ofNat value)

/-- A truth field. -/
def flagField (name : String) (value : Bool) : String × Document := (name, .bool value)

/-- The length of a duration in milliseconds, as a field. -/
def durationField (d : Duration) : String × Document :=
  ("duration_ms", .number (.real d.milliseconds))

/-- The named fields of the record, without the text. -/
def fields : Event → Members
  | .manifestLoaded file count => [textField "file" file, countField "platform_count" count]
  | .manifestSkipped file => [textField "file" file]
  | .manifestLoadFailed file error => [textField "file" file, textField "error" error]
  | .extensionFoldersDiscovered root count =>
    [textField "root" root, countField "folder_count" count]
  | .platformRegistered id technology builtIn =>
    [textField "platform_id" id, textField "technology" technology, flagField "built_in" builtIn]
  | .duplicatePlatformId id => [textField "platform_id" id]
  | .resourcePathsChecked id count =>
    [textField "platform_id" id, countField "path_count" count]
  | .workerRegistered id replaced => [textField "worker_id" id, flagField "replaced" replaced]
  | .workerRemoved id => [textField "worker_id" id]
  | .workerInstantiated id => [textField "worker_id" id]
  | .specificationsLoaded folder count => [textField "folder" folder, countField "count" count]
  | .specificationSkipped file => [textField "file" file]
  | .specificationLoadFailed file error => [textField "file" file, textField "error" error]
  | .mappingsLoaded folder count => [textField "folder" folder, countField "count" count]
  | .mappingLoadFailed file error => [textField "file" file, textField "error" error]
  | .mappingCreated name duration _ => [textField "mapping_name" name, durationField duration]
  | .settingsCombinerCreated id name count =>
    [textField "settings_id" id, textField "settings_name" name, countField "control_count" count]
  | .settingsCombined name duration => [textField "settings_name" name, durationField duration]
  | .settingsSplit name duration => [textField "settings_name" name, durationField duration]
  | .settingsSearchCompleted settings unresolved duplicates =>
    [countField "settings_count" settings, countField "unresolved_count" unresolved,
      flagField "has_duplicates" duplicates]
  | .settingsSearchIncomplete unresolved =>
    [textField "unresolved" (joinUnresolved unresolved),
      countField "unresolved_count" unresolved.length]
  | .duplicateSettingsName name first second =>
    [textField "settings_name" name, textField "first_id" first, textField "second_id" second]
  | .settingsCycleDetected cycle =>
    [textField "cycle" (joinCycle cycle), countField "cycle_length" cycle.length]
  | .configLoaded path roots folders =>
    [textField "path" path, countField "root_count" roots, countField "folder_count" folders]
  | .hostReady platforms specifications combiners mappings duration =>
    [countField "platform_count" platforms, countField "specification_count" specifications,
      countField "combiner_count" combiners, countField "mapping_count" mappings,
      countField "duration_ms" duration.wholeMilliseconds]

/-- The fields that a span of the event carries, its name apart. -/
def spanFields : Event → Members
  | .mappingCreated name .. => [textField "mapping_name" name]
  | .settingsCombinerCreated id name _ =>
    [textField "settings_id" id, textField "settings_name" name]
  | .settingsCombined name _ => [textField "settings_name" name]
  | .settingsSplit name _ => [textField "settings_name" name]
  | .settingsSearchCompleted settings unresolved _ =>
    [countField "settings_count" settings, countField "unresolved_count" unresolved]
  | .settingsSearchIncomplete unresolved => [countField "unresolved_count" unresolved.length]
  | .duplicateSettingsName name _ _ => [textField "settings_name" name]
  | .settingsCycleDetected cycle => [textField "cycle" (joinCycle cycle)]
  | .configLoaded path _ _ => [textField "path" path]
  | .hostReady platforms specifications _ _ _ =>
    [countField "platform_count" platforms, countField "specification_count" specifications]
  | event => event.fields

/-- One record of an event: its level and its fields, the text among them. -/
structure Record where
  /-- The level. -/
  level : Level
  /-- The fields; the text is the field `message`. -/
  fields : Members

/-- What an event records: itself, and a made mapping also with the mapping's text. -/
def records (event : Event) : List Record :=
  ⟨event.level, Members.put event.fields "message" (.string event.text)⟩ ::
    match event with
    | .mappingCreated name _ mapping =>
      [⟨.trace, [textField "mapping_name" name,
        textField "message" (event.text ++ "\n" ++ mapping)]⟩]
    | _ => []

/-- The record of a span that an event opens under a name. -/
def span (event : Event) (name : String) : Record :=
  ⟨event.level, Members.put event.spanFields "name" (.string name)⟩

end Event

end ExecutorHost
