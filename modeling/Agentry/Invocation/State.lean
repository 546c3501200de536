import Agentry.Json.Decoder
import Agentry.Json.Printer
/-!
# States of an invocation

An invocation is created, gets its input, executes, and ends in one of two terminal states.
-/
namespace Agentry

inductive RunState where
  | created
  | inputCoerced
  | executing
  | succeeded
  | failed
  deriving DecidableEq, Repr

namespace RunState

def name : RunState → String
  | .created => "created"
  | .inputCoerced => "input_coerced"
  | .executing => "executing"
  | .succeeded => "succeeded"
  | .failed => "failed"

/-- The name as one capitalised word. -/
def title : RunState → String
  | .created => "Created"
  | .inputCoerced => "InputCoerced"
  | .executing => "Executing"
  | .succeeded => "Succeeded"
  | .failed => "Failed"

def ofName (name : String) : Option RunState :=
  [created, inputCoerced, executing, succeeded, failed].find? (·.name = name)

def isTerminal : RunState → Bool
  | .succeeded => true
  | .failed => true
  | _ => false

def decoder : Json.Decoder RunState := Json.Decoder.word ofName

def toJson (state : RunState) : Json.Value := .string state.name

end RunState

/-- How invocations are run: whether an argument that is no number is refused as a number. -/
structure RunConfig where
  strictNumbers : Bool
  deriving DecidableEq, Repr

namespace RunConfig

def lenient : RunConfig := ⟨false⟩

def toJson (config : RunConfig) : Json.Value :=
  .object [("strict_numbers", .bool config.strictNumbers)]

structure Draft where
  strictNumbers : Option Bool

def decoder : Json.Decoder RunConfig :=
  Json.Decoder.record
    [Json.Decoder.field "strict_numbers" true Json.Decoder.bool (·.strictNumbers)
      fun (_ : Draft) x => ⟨some x⟩]
    ⟨none⟩ fun d => some ⟨d.strictNumbers.getD false⟩

end RunConfig
end Agentry
