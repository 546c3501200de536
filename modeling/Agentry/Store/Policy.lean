import Agentry.Json.Decoder
import Agentry.Text.Lowercase
/-!
# Collision policies and outcomes

Two agents whose names have one slug collide. A policy says what a write does then, and an outcome
says what it did.
-/
namespace Agentry

inductive CollisionPolicy where
  | reject
  | overwrite
  | suffix
  deriving DecidableEq, Repr

namespace CollisionPolicy

def name : CollisionPolicy → String
  | .reject => "reject"
  | .overwrite => "overwrite"
  | .suffix => "suffix"

def ofName (name : String) : Option CollisionPolicy :=
  [reject, overwrite, suffix].find? (·.name = name)

/-- A policy as typed in, in any ASCII case. The error is a message. -/
def parse (text : String) : Except String CollisionPolicy :=
  let word := Text.asciiLowercase text
  match ofName word with
  | some policy => .ok policy
  | none =>
    .error ("unknown collision policy '" ++ word ++ "' (expected reject, overwrite or suffix)")

def decoder : Json.Decoder CollisionPolicy := Json.Decoder.word ofName

def toJson (policy : CollisionPolicy) : Json.Value := .string policy.name

end CollisionPolicy

inductive WriteOutcome where
  | created
  | updated
  | unchanged
  | overwrote
  deriving DecidableEq, Repr

namespace WriteOutcome

def name : WriteOutcome → String
  | .created => "created"
  | .updated => "updated"
  | .unchanged => "unchanged"
  | .overwrote => "overwrote"

def ofName (name : String) : Option WriteOutcome :=
  [created, updated, unchanged, overwrote].find? (·.name = name)

def decoder : Json.Decoder WriteOutcome := Json.Decoder.word ofName

def toJson (outcome : WriteOutcome) : Json.Value := .string outcome.name

end WriteOutcome
end Agentry
