import Agentry.Error
import Agentry.Json.Decoder
/-!
# Responses

A response tells a program that asked for an artifact which file holds it, or what went wrong. Which
of the two a document means is seen from its members.
-/
namespace Agentry

open Json (Value Decoder DecodeError Node)

inductive Response where
  | done (success : Bool) (fileName : String)
  | failed (kind message : String)
  deriving DecidableEq, Repr

namespace Response

def ofFileName (fileName : String) : Response := .done true fileName

def ofError (cause : AgentError) : Response := .failed cause.kind cause.message

def toJson : Response → Value
  | .done success fileName =>
    .object [("success", .bool success), ("filename", .string fileName)]
  | .failed kind message => .object [("error", .string kind), ("message", .string message)]

structure DoneDraft where
  success : Option Bool
  fileName : Option String

def doneDecoder : Decoder Response :=
  Decoder.record
    [Decoder.field "success" false Decoder.bool (·.success)
       fun (d : DoneDraft) x => { d with success := some x },
     Decoder.field "filename" false Decoder.text (·.fileName)
       fun d x => { d with fileName := some x }]
    ⟨none, none⟩ fun d => do return .done (← d.success) (← d.fileName)

structure FailedDraft where
  kind : Option String
  message : Option String

def failedDecoder : Decoder Response :=
  Decoder.record
    [Decoder.field "error" false Decoder.text (·.kind)
       fun (d : FailedDraft) x => { d with kind := some x },
     Decoder.field "message" false Decoder.text (·.message)
       fun d x => { d with message := some x }]
    ⟨none, none⟩ fun d => do return .failed (← d.kind) (← d.message)

/-- The first form that an object has. All that stands in it has to be a value. -/
def decoder : Decoder Response
  | depth, .object members => do
    let _ ← Decoder.value depth (.object members)
    match doneDecoder depth (.object members) with
    | .ok response => .ok response
    | .error _ => failedDecoder depth (.object members)
  | _, _ => .error .malformed

end Response
end Agentry
