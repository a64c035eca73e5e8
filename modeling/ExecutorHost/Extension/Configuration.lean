import ExecutorHost.Document.Field

/-!
# Platform configurations

What a platform's technology needs to know. The members that the host understands are extracted
once; the whole object is kept beside them and is what is written again, so that unknown members
survive.
-/

namespace ExecutorHost

/-- The configuration of a platform. -/
structure Configuration where
  /-- The object that the configuration was read from. -/
  source : Members
  /-- Resource paths, or patterns of them. -/
  classpath : List String
  /-- All resource paths must exist. -/
  requireExistingPaths : Bool
  /-- Options of a virtual machine, for technologies that have one. -/
  vmOptions : Option (List String)
deriving Repr, Inhabited

namespace Configuration

/-- The configuration without any member. -/
def empty : Configuration := ⟨[], [], false, none⟩

/-- The configuration that an object describes. -/
def parse (source : Members) : Except FieldError Configuration := do
  let classpath ← Members.strings? source "classpath"
  let vmOptions ← Members.strings? source "vm_options"
  let requireExistingPaths ← Members.boolOr source "require_existing_paths" false
  return ⟨source, classpath.getD [], requireExistingPaths, vmOptions⟩

/-- The written form: the object that was read. -/
def toMembers (c : Configuration) : Members := c.source

end Configuration

end ExecutorHost
