import ExecutorHost.Executor.Specification

/-!
# Chain ports

The ports of an executor as a graph of connected executors sees them: data inputs, data outputs, and
controls that are exposed as ports. Each kind has a direction and a stable code.
-/

namespace ExecutorHost

/-- The way that data takes through a port. -/
inductive Direction
  /-- Into the executor. -/
  | input
  /-- Out of the executor. -/
  | output
deriving DecidableEq, Repr

/-- The direction's name in documents. -/
def Direction.name : Direction → String
  | .input => "input"
  | .output => "output"

/-- The kinds of port. -/
inductive PortKind
  /-- A data input. -/
  | inputPort
  /-- A data output. -/
  | outputPort
  /-- A control exposed as an input. -/
  | inputControl
  /-- A control exposed as an output. -/
  | outputControl
deriving DecidableEq, Repr

namespace PortKind

/-- All kinds, in the order of their codes. -/
def all : List PortKind := [.inputPort, .outputPort, .inputControl, .outputControl]

/-- The stable code. -/
def code : PortKind → Nat
  | .inputPort => 1
  | .outputPort => 2
  | .inputControl => 3
  | .outputControl => 4

/-- The kind of a code. -/
def ofCode? (code : Int) : Option PortKind := all.find? fun kind => (kind.code : Int) == code

/-- The kind's name in documents. -/
def name : PortKind → String
  | .inputPort => "input_port"
  | .outputPort => "output_port"
  | .inputControl => "input_control_as_port"
  | .outputControl => "output_control_as_port"

/-- The kind of a name in documents. -/
def ofName? (name : String) : Option PortKind := all.find? (·.name == name)

/-- The kind that a document names: by its name, or as an object with the name as its only key. -/
def ofDocument? : Document → Option PortKind
  | .string name => ofName? name
  | .object [(name, .null)] => ofName? name
  | _ => none

/-- The kind in words. -/
def phrase : PortKind → String
  | .inputPort => "input port"
  | .outputPort => "output port"
  | .inputControl => "input control as port"
  | .outputControl => "output control as port"

/-- The port carries data, and is no control. -/
def isActual : PortKind → Bool
  | .inputPort | .outputPort => true
  | .inputControl | .outputControl => false

/-- The port is a control. -/
def isVirtual (kind : PortKind) : Bool := !kind.isActual

/-- The way that data takes through the port. -/
def direction : PortKind → Direction
  | .inputPort | .inputControl => .input
  | .outputPort | .outputControl => .output

end PortKind

/-- A port of an executor in a graph. -/
structure ChainPort where
  /-- The name of the port or control. -/
  name : String
  /-- The type of the data. -/
  valueType : String
  /-- The kind. -/
  kind : PortKind
deriving DecidableEq, Repr

/-- The written form. -/
def ChainPort.toDocument (p : ChainPort) : Document :=
  .object [("name", .string p.name), ("value_type", .string p.valueType),
    ("port_type", .string p.kind.name)]

/-- The controls of a specification that are not named like one of its data inputs. -/
def Specification.exposedControls (s : Specification) : List Control :=
  s.controls.filter fun control => !s.inPorts.any (·.name == control.name)

/--
The ports of a specification: data inputs, then data outputs, then, if they are to be exposed, the
controls whose names no data input has.
-/
def Specification.chainPorts (s : Specification) (expose : Bool) : List ChainPort :=
  s.inPorts.map (fun p => ⟨p.name, p.valueType, .inputPort⟩) ++
    s.outPorts.map (fun p => ⟨p.name, p.valueType, .outputPort⟩) ++
    if expose then s.exposedControls.map fun c => ⟨c.name, c.valueType, .inputControl⟩ else []

end ExecutorHost
