import ExecutorHost.Worker.Error

/-!
# Executor specifications

A specification describes one executor: its identity, its ports, its controls and an optional role.
A specification whose role is a settings role describes settings: its controls are the entries of a
settings document. A control of the value type `settings` holds settings of another specification.
-/

namespace ExecutorHost

/-- An input or output of an executor for data. -/
structure DataPort where
  /-- The name. -/
  name : String
  /-- The type of the data. -/
  valueType : String
  /-- A caption to show. -/
  caption : Option String := none
deriving DecidableEq, Repr, Inhabited

namespace DataPort

/-- The fields of a written port. -/
def fields : List Shape.Field :=
  [.of "name" Shape.string, .of "value_type" Shape.string,
    .of "caption" (Shape.optional Shape.string)]

/-- The shape of a written port. -/
def shape : Shape DataPort :=
  Shape.record "PortSpecification" fields fun source => do
    let name ← source.required "name" Shape.string
    let valueType ← source.required "value_type" Shape.string
    let caption ← source.option "caption" Shape.string
    return ⟨name, valueType, caption⟩

/-- The written form. -/
def toDocument (p : DataPort) : Document :=
  .object (Members.putOptional [("name", .string p.name), ("value_type", .string p.valueType)]
    "caption" (p.caption.map .string))

end DataPort

/-- A named value that an executor takes besides its data. -/
structure Control where
  /-- The name. -/
  name : String
  /-- The type of the value. -/
  valueType : String
  /-- The value that stands for an absent one. -/
  default : Option Document := none
  /-- The id of the specification that a sub-settings control belongs to. -/
  settingsId : Option String := none
  /-- A caption to show. -/
  caption : Option String := none
  /-- What the control does. -/
  description : Option String := none
deriving Repr, Inhabited

namespace Control

/-- The value type of controls that hold settings of another specification. -/
def settingsType : String := "settings"

/-- The control holds settings of another specification. -/
def isSubSettings (c : Control) : Bool := c.valueType == settingsType

/-- The fields of a written control. -/
def fields : List Shape.Field :=
  [.of "name" Shape.string, .of "value_type" Shape.string,
    .of "default" (Shape.optional Shape.any), .of "settings_id" (Shape.optional Shape.string),
    .of "caption" (Shape.optional Shape.string),
    .of "description" (Shape.optional Shape.string)]

/-- The shape of a written control. -/
def shape : Shape Control :=
  Shape.record "ControlSpecification" fields fun source => do
    let name ← source.required "name" Shape.string
    let valueType ← source.required "value_type" Shape.string
    let default ← source.option "default" Shape.any
    let settingsId ← source.option "settings_id" Shape.string
    let caption ← source.option "caption" Shape.string
    let description ← source.option "description" Shape.string
    return ⟨name, valueType, default, settingsId, caption, description⟩

/-- The written form. -/
def toDocument (c : Control) : Document :=
  let entries : List (String × Option Document) := [
    ("name", some (.string c.name)),
    ("value_type", some (.string c.valueType)),
    ("default", c.default),
    ("settings_id", c.settingsId.map .string),
    ("caption", c.caption.map .string),
    ("description", c.description.map .string)]
  .object (entries.filterMap fun (key, value) => value.map (key, ·))

end Control

/-- What an executor is used as. -/
structure Role where
  /-- The name of the role; of a settings role, the name of the settings. -/
  name : String
  /-- The role is to describe settings. -/
  settings : Bool
deriving DecidableEq, Repr, Inhabited

namespace Role

/-- The fields of a written role. -/
def fields : List Shape.Field := [.of "name" Shape.string, .of "settings" Shape.bool]

/-- The shape of a written role. -/
def shape : Shape Role :=
  Shape.record "RoleSpecification" fields fun source => do
    let name ← source.required "name" Shape.string
    let settings ← source.getOr "settings" Shape.bool false
    return ⟨name, settings⟩

/-- The written form. -/
def toDocument (r : Role) : Document :=
  .object [("name", .string r.name), ("settings", .bool r.settings)]

end Role

/-- The specification of an executor. -/
structure Specification where
  /-- The file that the specification was read from. -/
  file : Option Path := none
  /-- The version of the format. -/
  version : String
  /-- The id. -/
  id : String
  /-- A name to show. -/
  name : String
  /-- A category to group executors by. -/
  category : Option String := none
  /-- What the executor does. -/
  description : Option String := none
  /-- What the executor is used as. -/
  role : Option Role := none
  /-- The inputs. -/
  inPorts : List DataPort := []
  /-- The outputs. -/
  outPorts : List DataPort := []
  /-- The controls, in order. -/
  controls : List Control := []
deriving Repr, Inhabited

namespace Specification

/-- The version of a specification that gives none. -/
def currentVersion : String := "0.0.1"

/-- A specification without role, ports and controls. -/
def new (id name : String) : Specification := { version := currentVersion, id, name }

/-- The specification as the settings specification of a name. -/
def withSettingsRole (s : Specification) (settingsName : String) : Specification :=
  { s with role := some ⟨settingsName, true⟩ }

/-- The specification with one more input. -/
def withInPort (s : Specification) (p : DataPort) : Specification :=
  { s with inPorts := s.inPorts ++ [p] }

/-- The specification with one more output. -/
def withOutPort (s : Specification) (p : DataPort) : Specification :=
  { s with outPorts := s.outPorts ++ [p] }

/-- The name under which other settings refer to these, if the specification describes settings. -/
def settingsName? (s : Specification) : Option String :=
  (s.role.filter (·.settings)).map (·.name)

/-- The specification describes settings. -/
def isSettings (s : Specification) : Bool := s.role.any (·.settings)

/-! ## Controls -/

/-- The control of a name. -/
def control? (s : Specification) (name : String) : Option Control :=
  s.controls.find? (·.name == name)

/-- Controls with one put in place of the first of its name, or else at the end. -/
def putControl (control : Control) : List Control → List Control
  | [] => [control]
  | c :: rest => if c.name = control.name then control :: rest else c :: putControl control rest

/-- Controls without the first of a name. -/
def dropControl (name : String) : List Control → List Control
  | [] => []
  | c :: rest => if c.name = name then rest else c :: dropControl name rest

/-- The specification with a control put in place of the first of its name, or else at the end. -/
def addControl (s : Specification) (control : Control) : Specification :=
  { s with controls := putControl control s.controls }

/-- The specification without the first control of a name. -/
def removeControl (s : Specification) (name : String) : Specification :=
  { s with controls := dropControl name s.controls }

/-- The controls that hold settings of another specification. -/
def subSettings (s : Specification) : List Control := s.controls.filter (·.isSubSettings)

/-! ## Reading and writing -/

/-- A document carries the marker of executor specifications. -/
def isSpecification (d : Document) : Bool :=
  match d with
  | .object members => (Members.get? members "app").bind Document.string? == some executorApp
  | _ => false

/-- The fields of a written specification. -/
def fields : List Shape.Field :=
  [.of "app" Shape.string, .of "version" Shape.string, .of "id" Shape.string,
    .of "name" (Shape.optional Shape.string), .of "category" (Shape.optional Shape.string),
    .of "description" (Shape.optional Shape.string), .of "role" (Shape.optional Role.shape),
    .of "in_ports" (Shape.list DataPort.shape), .of "out_ports" (Shape.list DataPort.shape),
    .of "controls" (Shape.list Control.shape)]

/-- The shape of a written specification. Its name is its id if it gives none. -/
def shape (file : Option Path) : Shape Specification :=
  Shape.record "Specification" fields fun source => do
    let _ ← source.required "app" Shape.string
    let version ← source.getOr "version" Shape.string currentVersion
    let id ← source.required "id" Shape.string
    let name ← source.option "name" Shape.string
    let category ← source.option "category" Shape.string
    let description ← source.option "description" Shape.string
    let role ← source.option "role" Role.shape
    let inPorts ← source.getOr "in_ports" (Shape.list DataPort.shape) []
    let outPorts ← source.getOr "out_ports" (Shape.list DataPort.shape) []
    let controls ← source.getOr "controls" (Shape.list Control.shape) []
    return ⟨file, version, id, name.getD id, category, description, role, inPorts, outPorts,
      controls⟩

/-- The specification that a document describes; it must carry the marker. -/
def parse (d : Document) (file : Option Path) : Except WorkerError Specification :=
  if isSpecification d then (shape file d).mapError (.shape file)
  else .error (.notSpecification file)

/-- The specification that a text describes. -/
def ofText (text : String) : Except WorkerError Specification := do
  parse (← readSpecificationText text none) none

/-- The specification that a file holds. -/
def loadFile (tree : FileTree) (path : Path) : Except WorkerError Specification := do
  parse (← readSpecificationFile tree path) (some path)

/-- The specification that a file holds, or nothing if its document is not marked as one. -/
def loadFileIfRecognized (tree : FileTree) (path : Path) :
    Except WorkerError (Option Specification) := do
  let d ← readSpecificationFile tree path
  if isSpecification d then return some (← parse d (some path)) else return none

/-- The written form. Empty lists are left out. -/
def toDocument (s : Specification) : Document :=
  let list {α : Type} (items : List α) (form : α → Document) : Option Document :=
    if items.isEmpty then none else some (.array (items.map form))
  let entries : List (String × Option Document) := [
    ("app", some (.string executorApp)),
    ("version", some (.string s.version)),
    ("id", some (.string s.id)),
    ("name", some (.string s.name)),
    ("category", s.category.map .string),
    ("description", s.description.map .string),
    ("role", s.role.map Role.toDocument),
    ("in_ports", list s.inPorts DataPort.toDocument),
    ("out_ports", list s.outPorts DataPort.toDocument),
    ("controls", list s.controls Control.toDocument)]
  .object (entries.filterMap fun (key, value) => value.map (key, ·))

end Specification

end ExecutorHost
