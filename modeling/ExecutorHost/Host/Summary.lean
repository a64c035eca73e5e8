import ExecutorHost.Executor.ChainPort
import ExecutorHost.Host.Basic

/-!
# Summaries of hosts

A host in words for a reader: its platforms, its executors, its mappings, and how its settings hang
together.
-/

namespace ExecutorHost.Host

/-- The line of a platform. -/
def platformLine (p : Platform) : String :=
  let models := match p.folders.folderIfDeclared .models with
    | .ok (some folder) => folder.text
    | _ => "no models"
  let remark := if p.builtIn then ", built-in" else ""
  s!"  • {p.id} \"{p.name}\" [{p.technology}{remark}] → {models}"

/-- The line of an executor that is registered under an id. -/
def executorLine (id : String) (s : Specification) : String :=
  let role := match s.settingsName? with
    | some name => s!" (settings \"{name}\")"
    | none => ""
  s!"  • {id}{role}: {(s.chainPorts false).length} port(s)"

/-- The line of a mapping that is registered under an id. -/
def mappingLine (id : String) (m : Mapping) : String :=
  let keys := ", ".intercalate m.keys
  s!"  • {id}: {keys}"

/-- The line of an unresolved reference. -/
def unresolvedLine (r : UnresolvedReference) : String := s!"     ⚠️  unresolved {r.text}"

/-- The lines about settings. -/
def settingsLines (h : Host) : List String :=
  let count := h.combiners.size
  match h.search with
  | none => [s!"⚙️  Settings: {count} combiner(s)"]
  | some search =>
    let found := (search.result.map (·.found.size)).getD 0
    let unresolved := (search.result.map (·.unresolved)).getD []
    let title := s!"⚙️  Settings: {count} combiner(s), {found} reachable, " ++
      s!"complete: {search.isComplete}, duplicates: {search.hasDuplicates}"
    title :: unresolved.map unresolvedLine

/-- The lines of a summary. -/
def summary (h : Host) : List String :=
  ["", s!"🧩 Platforms ({h.platforms.size}):"] ++ h.platforms.platforms.map platformLine ++
    ["", s!"🔧 Executors ({h.specifications.size}):"] ++
    h.specifications.entries.map (fun (id, s) => executorLine id s) ++
    ["", s!"🗺️  Mappings ({h.mappings.size}):"] ++
    h.mappings.entries.map (fun (id, m) => mappingLine id m) ++
    [""] ++ h.settingsLines

end ExecutorHost.Host
