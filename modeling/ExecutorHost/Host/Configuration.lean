import ExecutorHost.Event.Journal
import ExecutorHost.FileTree.Basic
import ExecutorHost.Host.Error
import ExecutorHost.Yaml.Node

/-!
# Host configuration

Where a host looks for extensions and how it prepares settings. The configuration is written in
YAML, in two sections that may both be left out; what a section does not say has a default. Members
that are not known are passed over, but a known one may stand only once.
-/

namespace ExecutorHost

/-- The configuration of a host. -/
structure HostConfiguration where
  /-- The folders that are searched for extension folders at any depth. -/
  roots : List Path := []
  /-- The folders that are extension folders themselves. -/
  folders : List Path := []
  /-- Resource paths that must exist are checked. -/
  checkResourcePaths : Bool := true
  /-- The settings search is made. -/
  smartSearch : Bool := true
  /-- The settings search must resolve every reference. -/
  requireComplete : Bool := false
deriving DecidableEq, Repr

namespace HostConfiguration

/-- The configuration that a file without anything in it gives. -/
def standard : HostConfiguration := {}

/-! ## Reading -/

/-- Members of a section, with their keys as texts. -/
abbrev Section := List (String × Yaml.Node)

variable (d : Yaml.Document)

/-- The text of a scalar, however it is written. -/
def scalarText? (node : Yaml.Node) : Option String := do
  match ← d.follow? node with
  | .scalar text _ _ => return text
  | _ => none

/-- The section that a node writes; an absent one is empty. -/
def section? (node : Yaml.Node) : Option Section := do
  match ← d.follow? node with
  | .mapping entries => entries.mapM fun (key, value) => (scalarText? d key).map (·, value)
  | .scalar "" .plain _ => return []
  | _ => none

/-- A member read, or its default if it is not there; it may not stand twice. -/
def member? {α : Type} (members : Section) (key : String) (read : Yaml.Node → Option α)
    (default : α) : Option α :=
  match members.filter (·.1 == key) with
  | [] => some default
  | [(_, node)] => read node
  | _ => none

/-- The paths that a node lists; an absent list is empty. -/
def paths? (node : Yaml.Node) : Option (List Path) := do
  match ← d.follow? node with
  | .sequence items => items.mapM fun item => (scalarText? d item).map Path.mk
  | .scalar "" .plain _ => return []
  | _ => none

/-- The truth value that a word stands for. -/
def truthOf? (word : String) : Option Bool :=
  if word ∈ ["true", "True", "TRUE"] then some true
  else if word ∈ ["false", "False", "FALSE"] then some false
  else none

/-- The truth value of a plain scalar, or of a block of lines with the tag of truth values. -/
def truth? (node : Yaml.Node) : Option Bool := do
  match ← d.follow? node with
  | .scalar word .plain _ => truthOf? word
  | .scalar word .literal (some tag) => if tag = Yaml.Tag.truth then truthOf? word else none
  | _ => none

/-- The configuration that a document describes. -/
def ofDocument? : Option HostConfiguration := do
  let sections ← section? d d.root
  let extensions ← member? sections "extensions" (section? d) []
  let settings ← member? sections "settings" (section? d) []
  return {
    roots := ← member? extensions "roots" (paths? d) standard.roots
    folders := ← member? extensions "folders" (paths? d) standard.folders
    checkResourcePaths :=
      ← member? extensions "check_resource_paths" (truth? d) standard.checkResourcePaths
    smartSearch := ← member? settings "smart_search" (truth? d) standard.smartSearch
    requireComplete := ← member? settings "require_complete" (truth? d) standard.requireComplete }

/-- The configuration that a text writes. -/
def ofText? (text : String) : Option HostConfiguration := do
  ofDocument? (← Yaml.Document.ofText? text)

/-! ## Paths -/

/-- The configuration with its relative paths continued from a base. -/
def resolvePaths (c : HostConfiguration) (base : Path) : HostConfiguration :=
  { c with roots := c.roots.map base.join, folders := c.folders.map base.join }

/-- Where the relative paths of a configuration file start: the folder that the file is in. -/
def baseOf (file : Path) : Path := file.parent?.getD ⟨"."⟩

/-- The configuration that a file holds, with its paths resolved. -/
def load (tree : FileTree) (file : Path) : Logged HostError HostConfiguration := do
  let text ← MonadExcept.ofExcept ((tree.readText file).mapError (.configUnreadable file))
  match ofText? text with
  | none => throw (.configMalformed file)
  | some configuration =>
    let resolved := configuration.resolvePaths (baseOf file)
    Logged.report (.configLoaded file.text resolved.roots.length resolved.folders.length)
    return resolved

end HostConfiguration

end ExecutorHost
