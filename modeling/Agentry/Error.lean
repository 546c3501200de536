import Agentry.Artifact.Literal
import Agentry.Files.Error
import Agentry.Spec.Error
/-!
# Why an operation on agents fails

Every cause has a stable kind and a message.
-/
namespace Agentry

inductive AgentError where
  | invalidSpec (cause : SpecError)
  | unwritable (cause : LiteralError)
  | slugTaken (slug existing requested : String)
  | alreadyRegistered (id : String)
  | file (cause : IoError)
  /-- Not a cause of its own kind: a count ran over, which stops the program. -/
  | countOverflow
  deriving DecidableEq, Repr

namespace AgentError

def kind : AgentError → String
  | .invalidSpec _ => "validation_error"
  | .unwritable _ => "generation_error"
  | .slugTaken .. => "slug_collision"
  | .alreadyRegistered _ => "duplicate_agent"
  | .file _ => "io_error"
  | .countOverflow => "panic"

def message : AgentError → String
  | .invalidSpec cause => "invalid agent spec: " ++ cause.message
  | .unwritable cause => "cannot generate artifact: " ++ cause.message
  | .slugTaken slug existing requested =>
    "slug '" ++ slug ++ "' already belongs to agent '" ++ existing ++ "' (requested '" ++
      requested ++ "')"
  | .alreadyRegistered id => "agent already registered: " ++ id
  | .file cause => "io error: " ++ cause.message
  | .countOverflow => "attempt to add with overflow"

/-- The message of what lies behind an error, if something does. -/
def causeMessage? : AgentError → Option String
  | .invalidSpec cause => some cause.message
  | .unwritable cause => some cause.message
  | .file cause => some cause.message
  | .slugTaken .. => none
  | .alreadyRegistered _ => none
  | .countOverflow => none

end AgentError
end Agentry
