import Agentry.Artifact.Parsed
import Agentry.Invocation.State
/-!
# Events

What happens on the way is told in events. An event has a level and fields, and the events of one
invocation stand inside its span.
-/
namespace Agentry

open Json (Value)

inductive Level where
  | debug
  | info
  | warn
  | error
  deriving DecidableEq, Repr

def Level.name : Level → String
  | .debug => "DEBUG"
  | .info => "INFO"
  | .warn => "WARN"
  | .error => "ERROR"

/-- What happens around a command. -/
inductive CommandEvent where
  | denied (command pattern : String)
  | notSpawned (command : String)
  | notKilled (command : String)
  | timedOut (command : String) (limit : Nat)
  | finished (command : String) (exitCode : Int)
  deriving DecidableEq, Repr

/-- What happens in an invocation. -/
inductive RunEvent where
  | started (agent : String) (arguments : Nat)
  | surplusArguments (extra : Nat)
  | moved (agent : String) (before after : RunState)
  | command (event : CommandEvent)
  | panicked (agent message : String)
  | finished (agent : String) (success : Bool)
  deriving DecidableEq, Repr

inductive Event where
  | partIssue (agent : String) (issue : PartIssue)
  | malformedPart (agent : String) (part : SpecPart)
  | overwriting (slug existing requested : String)
  | written (slug path outcome : String)
  | registered (id agent : String)
  | unknownAgent (id : String)
  | directoryChanged (path : String)
  | command (event : CommandEvent)
  | run (event : RunEvent)
  deriving DecidableEq, Repr

/-- The level of an event and its fields. -/
abbrev Report := Level × List (String × Value)

def CommandEvent.report : CommandEvent → Report
  | .denied command pattern =>
    (.warn, [("event", .string "command.denied"), ("command", .string command),
      ("pattern", .string pattern)])
  | .notSpawned command =>
    (.warn, [("message", .string "failed to spawn command"), ("command", .string command)])
  | .notKilled command =>
    (.warn, [("message", .string "failed to kill timed-out command"), ("command", .string command)])
  | .timedOut command limit =>
    (.warn, [("event", .string "command.timed_out"), ("command", .string command),
      ("timeout_ms", .ofNat limit)])
  | .finished command exitCode =>
    (.info, [("event", .string "command.finished"), ("command", .string command),
      ("exit_code", .ofInt exitCode)])

def RunEvent.report : RunEvent → Report
  | .started agent arguments =>
    (.info, [("event", .string "invocation.started"), ("agent", .string agent),
      ("arg_count", .ofNat arguments)])
  | .surplusArguments extra =>
    (.debug, [("message", .string "ignoring positional arguments beyond the input schema"),
      ("extra", .ofNat extra)])
  | .moved agent before after =>
    (.debug, [("message", .string "runtime state"), ("agent", .string agent),
      ("from", .string before.title), ("to", .string after.title)])
  | .command event => event.report
  | .panicked agent message =>
    (.error, [("message", .string "agent behavior panicked"), ("agent", .string agent),
      ("panic", .string message)])
  | .finished agent success =>
    (.info, [("event", .string "invocation.finished"), ("agent", .string agent),
      ("success", .bool success)])

namespace Event

def report : Event → Report
  | .partIssue agent issue =>
    (.warn, [("event", .string "artifact.parse_issue"), ("agent", .string agent),
      ("field", .string issue.part.label), ("message", .string issue.cause.message)])
  | .malformedPart agent part =>
    (.warn, [("message", .string "artifact literal is malformed"), ("agent", .string agent),
      ("field", .string part.label)])
  | .overwriting slug existing requested =>
    (.warn, [("message", .string "overwriting artifact of a different agent"),
      ("slug", .string slug), ("existing", .string existing), ("requested", .string requested)])
  | .written slug path outcome =>
    (.info, [("event", .string "artifact.written"), ("slug", .string slug), ("path", .string path),
      ("outcome", .string outcome)])
  | .registered id agent =>
    (.debug, [("message", .string "agent registered"), ("id", .string id),
      ("agent", .string agent)])
  | .unknownAgent id =>
    (.warn, [("message", .string "invocation of unknown agent"), ("id", .string id)])
  | .directoryChanged path =>
    (.debug, [("message", .string "sandbox working directory changed"), ("cwd", .string path)])
  | .command event => event.report
  | .run event => event.report

/-- The name of the span that an event stands in. -/
def span : Event → Value
  | .run _ => .string "agentc.invocation"
  | _ => .null

def toJson (event : Event) : Value :=
  .object [("level", .string event.report.1.name), ("span", event.span),
    ("fields", .object event.report.2)]

end Event

/-- One event for each part that could not be read. -/
def ParsedArtifact.events (parsed : ParsedArtifact) : List Event :=
  parsed.issues.map (.partIssue parsed.spec.name)

end Agentry
