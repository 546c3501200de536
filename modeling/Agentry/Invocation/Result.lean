import Agentry.Invocation.RunId
import Agentry.Invocation.Timestamp
import Agentry.Json.Decoder
import Agentry.Json.Printer
/-!
# Results of invocations

A result says which agent ran, under which id and when, and how the run came out. In a document the
outcome is told by the member `status`; as an array a result starts with it.
-/
namespace Agentry

open Json (Value Decoder DecodeError Node)

inductive RunOutcome where
  | succeeded (output : Value)
  | failed (message : String)

/-- The id and the time of a run. -/
structure RunStamp where
  id : RunId
  time : Timestamp
  deriving DecidableEq, Repr

structure RunResult where
  agent : String
  stamp : RunStamp
  outcome : RunOutcome

namespace RunResult

def isSuccess (result : RunResult) : Bool :=
  match result.outcome with
  | .succeeded _ => true
  | .failed _ => false

def output? (result : RunResult) : Option Value :=
  match result.outcome with
  | .succeeded output => some output
  | .failed _ => none

def message? (result : RunResult) : Option String :=
  match result.outcome with
  | .succeeded _ => none
  | .failed message => some message

def statusOf (isSuccess : Bool) : String :=
  if isSuccess then "succeeded" else "failed"

def status (result : RunResult) : String := statusOf result.isSuccess

def lastMember (result : RunResult) : String × Value :=
  match result.outcome with
  | .succeeded output => ("output", output)
  | .failed message => ("message", .string message)

def toJson (result : RunResult) : Value :=
  .object [("status", .string result.status), ("agent", .string result.agent),
    ("run_id", .string result.stamp.id.text), ("timestamp", .string result.stamp.time.text),
    result.lastMember]

structure Draft where
  agent : Option String
  id : Option RunId
  time : Option Timestamp
  outcome : Option RunOutcome

def outcomeField (isSuccess : Bool) : Decoder.Field Draft :=
  if isSuccess then
    Decoder.field "output" false Decoder.value
      (fun d => match d.outcome with | some (.succeeded v) => some v | _ => none)
      fun d x => { d with outcome := some (.succeeded x) }
  else
    Decoder.field "message" false Decoder.text
      (fun d => match d.outcome with | some (.failed m) => some m | _ => none)
      fun d x => { d with outcome := some (.failed x) }

def draftFields (isSuccess : Bool) : List (Decoder.Field Draft) :=
  [Decoder.field "agent" false Decoder.text (·.agent) fun d x => { d with agent := some x },
   Decoder.field "run_id" false (Decoder.parsed RunId.parse) (·.id)
     fun d x => { d with id := some x },
   Decoder.field "timestamp" false (Decoder.parsed Timestamp.parse) (·.time)
     fun d x => { d with time := some x },
   outcomeField isSuccess]

def Draft.finish (d : Draft) : Option RunResult := do
  return ⟨← d.agent, ⟨← d.id, ← d.time⟩, ← d.outcome⟩

def readStatus (node : Node) : Option Bool :=
  match node with
  | .string (some s) =>
    if s = statusOf true then some true else if s = statusOf false then some false else none
  | _ => none

/-- The status members of an object. -/
def statusNodes (members : List (Option String × Node)) : List Node :=
  (members.filter fun (name, _) => name == some "status").map (·.2)

/-- The other members of an object. -/
def otherMembers (members : List (Option String × Node)) : List (Option String × Node) :=
  members.filter fun (name, _) => name != some "status"

/-- A result. All that stands in it has to be a value, whether it is asked for or not. -/
def decoder : Decoder RunResult
  | depth, .object members => do
    let _ ← Decoder.value depth (.object members)
    match (statusNodes members).map readStatus with
    | [some isSuccess] =>
      Decoder.record (draftFields isSuccess) ⟨none, none, none, none⟩ Draft.finish depth
        (.object (otherMembers members))
    | _ => .error .malformed
  | depth, .array (first :: rest) => do
    let _ ← Decoder.value depth (.array (first :: rest))
    match readStatus first with
    | some isSuccess =>
      Decoder.record (draftFields isSuccess) ⟨none, none, none, none⟩ Draft.finish depth
        (.array rest)
    | none => .error .malformed
  | _, _ => .error .malformed

end RunResult
end Agentry
