import ExecutorHost.Executor.Specification

/-!
# Mappings

A mapping specification is a fixed list of keys, all of them behind controls of one template. Its
keys are not empty and none stands twice. Making a mapping document projects parameters onto the
keys.
-/

namespace ExecutorHost

/-- The form of the control behind every key of a mapping. -/
structure ControlTemplate where
  /-- The type of the values. -/
  valueType : String := "string"
  /-- The value of a key that the parameters do not give. -/
  default : Option Document := none
  /-- A caption to show before the key. -/
  caption : Option String := none
deriving Repr, Inhabited

namespace ControlTemplate

/-- The fields of a written template. -/
def fields : List Shape.Field :=
  [.of "value_type" Shape.string, .of "default" (Shape.optional Shape.any),
    .of "caption" (Shape.optional Shape.string)]

/-- The shape of a written template. -/
def shape : Shape ControlTemplate :=
  Shape.record "ControlTemplate" fields fun source => do
    let valueType ← source.required "value_type" Shape.string
    let default ← source.option "default" Shape.any
    let caption ← source.option "caption" Shape.string
    return ⟨valueType, default, caption⟩

/-- The written form. -/
def toDocument (t : ControlTemplate) : Document :=
  let entries : List (String × Option Document) := [
    ("value_type", some (.string t.valueType)),
    ("default", t.default),
    ("caption", t.caption.map .string)]
  .object (entries.filterMap fun (key, value) => value.map (key, ·))

end ControlTemplate

/-- The specification of a mapping. -/
structure Mapping where
  /-- The file that the specification was read from. -/
  file : Option Path := none
  /-- The version of the format. -/
  version : String
  /-- The id. -/
  id : String
  /-- A name to show. -/
  name : String
  /-- A category to group mappings by. -/
  category : Option String := none
  /-- What the mapping is for. -/
  description : Option String := none
  /-- The keys, in order. -/
  keys : List String := []
  /-- The form of the control behind every key. -/
  template : ControlTemplate := {}
deriving Repr, Inhabited

namespace Mapping

/-- The version of a mapping that gives none. -/
def currentVersion : String := "0.0.1"

/-- A document carries the marker of mappings. -/
def isMapping (d : Document) : Bool :=
  match d with
  | .object members => (Members.get? members "app").bind Document.string? == some mappingApp
  | _ => false

/-- The fields of a written mapping. -/
def fields : List Shape.Field :=
  [.of "app" Shape.string, .of "version" Shape.string, .of "id" Shape.string,
    .of "name" (Shape.optional Shape.string), .of "category" (Shape.optional Shape.string),
    .of "description" (Shape.optional Shape.string), .of "keys" (Shape.list Shape.string),
    .of "control_template" ControlTemplate.shape]

/-- The shape of a written mapping. Its name is its id if it gives none. -/
def shape (file : Option Path) : Shape Mapping :=
  Shape.record "Mapping" fields fun source => do
    let _ ← source.required "app" Shape.string
    let version ← source.getOr "version" Shape.string currentVersion
    let id ← source.required "id" Shape.string
    let name ← source.option "name" Shape.string
    let category ← source.option "category" Shape.string
    let description ← source.option "description" Shape.string
    let keys ← source.getOr "keys" (Shape.list Shape.string) []
    let template ← source.getOr "control_template" ControlTemplate.shape {}
    return ⟨file, version, id, name.getD id, category, description, keys, template⟩

/-- The first fault of a list of keys: an empty key, or one that stands before it already. -/
def keyFault? (before : List String) : List String → Option MappingFault
  | [] => none
  | key :: rest =>
    if key.isEmpty then some .emptyKey
    else if key ∈ before then some (.repeatedKey key)
    else keyFault? (key :: before) rest

/-- The mapping that a document describes; it must carry the marker, and its keys must be sound. -/
def parse (d : Document) (file : Option Path) : Except WorkerError Mapping := do
  if !isMapping d then .error (.mapping file .notMapping)
  let mapping ← (shape file d).mapError (.shape file)
  match keyFault? [] mapping.keys with
  | some fault => .error (.mapping file fault)
  | none => return mapping

/-- The mapping that a text describes. -/
def ofText (text : String) : Except WorkerError Mapping := do
  parse (← readSpecificationText text none) none

/-- The mapping that a file holds. -/
def loadFile (tree : FileTree) (path : Path) : Except WorkerError Mapping := do
  parse (← readSpecificationFile tree path) (some path)

/-- The mapping that a file holds, or nothing if its document is not marked as one. -/
def loadFileIfRecognized (tree : FileTree) (path : Path) :
    Except WorkerError (Option Mapping) := do
  let d ← readSpecificationFile tree path
  if isMapping d then return some (← parse d (some path)) else return none

/-- The controls behind the keys, in their order. -/
def controls (m : Mapping) : List Control :=
  m.keys.map fun key =>
    { name := key
      valueType := m.template.valueType
      default := m.template.default
      caption := some (match m.template.caption with
        | some caption => s!"{caption} {key}"
        | none => key) }

/-- The written form. -/
def toDocument (m : Mapping) : Document :=
  let entries : List (String × Option Document) := [
    ("app", some (.string mappingApp)),
    ("version", some (.string m.version)),
    ("id", some (.string m.id)),
    ("name", some (.string m.name)),
    ("category", m.category.map .string),
    ("description", m.description.map .string),
    ("keys", some (.ofStrings m.keys)),
    ("control_template", some m.template.toDocument)]
  .object (entries.filterMap fun (key, value) => value.map (key, ·))

/--
The mapping document of parameters: each key with its parameter, or else with the default of the
template. A key with neither is left out, and parameters that are no keys are passed over.
-/
def create (m : Mapping) (parameters : Members) : Members :=
  Members.ofEntries <| m.keys.filterMap fun key =>
    ((Members.get? parameters key).or m.template.default).map (key, ·)

end Mapping

end ExecutorHost
