import ExecutorHost.Document.Writer

/-!
# Typed members

Manifests and specifications are read member by member, because unknown members must survive being
read and written again and every wrong type must name the member. Null counts as absent.
-/

namespace ExecutorHost

/-- The kinds of value that a member is asked to be. -/
inductive MemberKind
  /-- A text. -/
  | string
  /-- A truth value. -/
  | boolean
  /-- A list. -/
  | array
  /-- Named values. -/
  | object
deriving DecidableEq, Repr

namespace MemberKind

/-- The kind's noun. -/
def noun : MemberKind → String
  | .string => "string"
  | .boolean => "boolean"
  | .array => "array"
  | .object => "object"

/-- The kind's noun after its article. -/
def withArticle : MemberKind → String
  | .string => "a string"
  | .boolean => "a boolean"
  | .array => "an array"
  | .object => "an object"

end MemberKind

/-- A member has the wrong type, or one that must be there is not. -/
inductive FieldError
  /-- A member is of another kind than the one asked for. -/
  | wrongKind (key : String) (wanted : MemberKind) (found : Document)
  /-- A required member is absent or null. -/
  | missing (key : String) (wanted : MemberKind)
  /-- An item of an array member is of another kind than all of them must be. -/
  | wrongElement (key : String) (wanted : MemberKind) (found : Document)
deriving Repr

/-- The wording of a field error; it shows what was found in its compact form. -/
def FieldError.message : FieldError → String
  | .wrongKind key wanted found =>
    s!"\"{key}\" must be {wanted.withArticle}, but it is {found.text}"
  | .missing key wanted => s!"required \"{key}\" {wanted.noun} is missing"
  | .wrongElement key wanted found =>
    s!"\"{key}\" array contains non-{wanted.noun} element {found.text}"

namespace Members

/-- A member that is absent or null, or else of a wanted form. -/
def optional {α : Type} (wanted : MemberKind) (form : Document → Option α) (members : Members)
    (key : String) : Except FieldError (Option α) :=
  match get? members key with
  | none => .ok none
  | some .null => .ok none
  | some d =>
    match form d with
    | some value => .ok (some value)
    | none => .error (.wrongKind key wanted d)

/-- A member that must be there, of a wanted form. -/
def required {α : Type} (wanted : MemberKind) (form : Document → Option α) (members : Members)
    (key : String) : Except FieldError α := do
  match ← optional wanted form members key with
  | some value => .ok value
  | none => .error (.missing key wanted)

/-- A text member, if it is there. -/
def string? (members : Members) (key : String) : Except FieldError (Option String) :=
  optional .string Document.string? members key

/-- A text member that must be there. -/
def string (members : Members) (key : String) : Except FieldError String :=
  required .string Document.string? members key

/-- A truth value, or the default if it is not there. -/
def boolOr (members : Members) (key : String) (default : Bool) : Except FieldError Bool :=
  (optional .boolean Document.bool? members key).map (·.getD default)

/-- A list member, if it is there. -/
def array? (members : Members) (key : String) : Except FieldError (Option (List Document)) :=
  optional .array Document.items? members key

/-- An object member, if it is there. -/
def object? (members : Members) (key : String) : Except FieldError (Option Members) :=
  optional .object Document.members? members key

/-- The items of an array named `key`, all of a wanted form; the first other one is the error. -/
def allOf {α : Type} (wanted : MemberKind) (form : Document → Option α) (key : String)
    (items : List Document) : Except FieldError (List α) :=
  items.mapM fun d =>
    match form d with
    | some value => .ok value
    | none => .error (.wrongElement key wanted d)

/-- The items of an array named `key`, which must all be texts. -/
def allStrings (key : String) (items : List Document) : Except FieldError (List String) :=
  allOf .string Document.string? key items

/-- The items of an array named `key`, which must all be objects. -/
def allObjects (key : String) (items : List Document) : Except FieldError (List Members) :=
  allOf .object Document.members? key items

/-- A list of texts, if it is there. -/
def strings? (members : Members) (key : String) : Except FieldError (Option (List String)) := do
  match ← array? members key with
  | some items => (allStrings key items).map some
  | none => .ok none

/-- A list of objects, if it is there. -/
def objects? (members : Members) (key : String) : Except FieldError (Option (List Members)) := do
  match ← array? members key with
  | some items => (allObjects key items).map some
  | none => .ok none

/-- A list of objects that must be there. -/
def objects (members : Members) (key : String) : Except FieldError (List Members) := do
  match ← objects? members key with
  | some items => .ok items
  | none => .error (.missing key .array)

end Members

end ExecutorHost
