import ExecutorHost.Document.Writer
import ExecutorHost.Text.Debug

/-!
# Shapes of documents

Specifications are read as records: a record is written as an object with named fields or as an
array with the fields in their declared order. Of an object, the members are looked at in the order
in which they are written and unknown ones are passed over; after that the first missing field is
reported. Of an array, fields at the end may be left off if they have a default.
-/

namespace ExecutorHost

/-- What a document must be where a shape is read. -/
inductive Expected
  /-- A text. -/
  | string
  /-- A truth value. -/
  | boolean
  /-- A list. -/
  | sequence
  /-- A record of this name. -/
  | record (name : String)
deriving DecidableEq, Repr

/-- The expected shape in words. -/
def Expected.phrase : Expected → String
  | .string => "a string"
  | .boolean => "a boolean"
  | .sequence => "a sequence"
  | .record name => s!"struct {name}"

/-- Why a document does not have a shape. -/
inductive ShapeFault
  /-- The document is of another type. -/
  | wrongType (found : Document) (expected : Expected)
  /-- A field of an object is missing. -/
  | missingField (name : String)
  /-- An array has too few items for a record of this name and number of fields. -/
  | tooShort (items : Nat) (record : String) (fields : Nat)
  /-- An array has more items than the record has fields. -/
  | tooLong (items : Nat)
deriving Repr

/-- A document in words, as far as its type; scalars are shown with their values. -/
def Document.phrase : Document → String
  | .null => "null"
  | .bool b => s!"boolean `{String.ofList (Document.boolText b)}`"
  | .number (.whole n) => s!"integer `{n}`"
  | .number (.real x) => s!"floating point `{String.ofList (Number.write (.real x))}`"
  | .string s => s!"string {Text.Debug.showText s}"
  | .array _ => "sequence"
  | .object _ => "map"

/-- The wording of a shape fault. -/
def ShapeFault.message : ShapeFault → String
  | .wrongType found expected =>
    s!"invalid type: {found.phrase}, expected {expected.phrase}"
  | .missingField name => s!"missing field `{name}`"
  | .tooShort items record fields =>
    s!"invalid length {items}, expected struct {record} with {fields} elements"
  | .tooLong items => s!"invalid length {items}, expected fewer elements in array"

/-- A reader of documents of one shape. -/
abbrev Shape (α : Type) := Document → Except ShapeFault α

namespace Shape

variable {α : Type}

/-- A text. -/
def string : Shape String
  | .string s => .ok s
  | d => .error (.wrongType d .string)

/-- A truth value. -/
def bool : Shape Bool
  | .bool b => .ok b
  | d => .error (.wrongType d .boolean)

/-- A list of items of one shape. -/
def list (item : Shape α) : Shape (List α)
  | .array items => items.mapM item
  | d => .error (.wrongType d .sequence)

/-- Any document. -/
def any : Shape Document := .ok

/-- Null, or a document of a shape. -/
def optional (shape : Shape α) : Shape (Option α)
  | .null => .ok none
  | d => (shape d).map some

/-! ## Records -/

/-- A field of a record with a check of its value. -/
structure Field where
  /-- The name of the field. -/
  name : String
  /-- Fails if a value does not have the field's shape. -/
  check : Document → Except ShapeFault Unit

/-- A field whose values have a shape. -/
def Field.of (name : String) (shape : Shape α) : Field :=
  ⟨name, fun d => (shape d).map fun _ => ()⟩

/-- The written fields of a record, and what is wrong if a required one is not among them. -/
structure Source where
  /-- The fields that are there. -/
  members : Members
  /-- The fault of a missing field. -/
  missing : String → ShapeFault

/-- A field that must be there. -/
def Source.required (source : Source) (name : String) (shape : Shape α) : Except ShapeFault α :=
  match Members.get? source.members name with
  | some d => shape d
  | none => .error (source.missing name)

/-- A field that has a default. -/
def Source.getOr (source : Source) (name : String) (shape : Shape α) (default : α) :
    Except ShapeFault α :=
  match Members.get? source.members name with
  | some d => shape d
  | none => .ok default

/-- A field that may be missing or null. -/
def Source.option (source : Source) (name : String) (shape : Shape α) :
    Except ShapeFault (Option α) :=
  source.getOr name (optional shape) none

/-- Every known field of an object has its shape. -/
def checkMembers (fields : List Field) (members : Members) : Except ShapeFault Unit :=
  members.forM fun (key, d) =>
    match fields.find? (·.name == key) with
    | some field => field.check d
    | none => .ok ()

/-- A record from the members of an object. -/
def ofMembers (fields : List Field) (build : Source → Except ShapeFault α) (members : Members) :
    Except ShapeFault α := do
  checkMembers fields members
  build ⟨members, .missingField⟩

/-- A record from the items of an array; `build` asks for the fields in their order. -/
def ofItems (name : String) (fields : List Field) (build : Source → Except ShapeFault α)
    (items : List Document) : Except ShapeFault α := do
  let source : Source :=
    ⟨(fields.map (·.name)).zip items, fun _ => .tooShort items.length name fields.length⟩
  let value ← build source
  if fields.length < items.length then .error (.tooLong items.length)
  return value

/-- A record with these fields, written as an object or as an array. -/
def record (name : String) (fields : List Field) (build : Source → Except ShapeFault α) : Shape α
  | .object members => ofMembers fields build members
  | .array items => ofItems name fields build items
  | d => .error (.wrongType d (.record name))

end Shape

end ExecutorHost
