import Agentry.Files.OsPath
import Agentry.Json.Decoder
import Agentry.Json.Printer
/-!
# Command records

What one command did. A command that was refused, not started, killed or ended by a signal has the
exit code -1. A document holds texts alone, so the record of a command in a directory whose path is
no text cannot be written as one.
-/
namespace Agentry

open Json (Value Decoder)

structure CommandRecord where
  command : String
  stdout : String
  stderr : String
  exitCode : Int
  directory : OsPath
  durationMs : Nat
  success : Bool
  timedOut : Bool
  denied : Bool
  pid : Option Nat
  deriving DecidableEq, Repr

/-- Why a value has no document. -/
inductive EncodeError where
  | pathNotText
  deriving DecidableEq, Repr

def EncodeError.message : EncodeError → String
  | .pathNotText => "path contains invalid UTF-8 characters"

def OsPath.toJson (path : OsPath) : Except EncodeError Value :=
  match path.text? with
  | some text => .ok (.string text)
  | none => .error .pathNotText

namespace CommandRecord

def toJson (r : CommandRecord) : Except EncodeError Value := do
  let directory ← r.directory.toJson
  return .object [("command", .string r.command), ("stdout", .string r.stdout),
    ("stderr", .string r.stderr), ("exit_code", .ofInt r.exitCode), ("cwd", directory),
    ("duration_ms", .ofNat r.durationMs), ("success", .bool r.success),
    ("timed_out", .bool r.timedOut), ("denied", .bool r.denied),
    ("pid", (r.pid.map Value.ofNat).getD .null)]

structure Draft where
  command : Option String
  stdout : Option String
  stderr : Option String
  exitCode : Option Int
  directory : Option String
  durationMs : Option Nat
  success : Option Bool
  timedOut : Option Bool
  denied : Option Bool
  pid : Option (Option Nat)

def Draft.blank : Draft := ⟨none, none, none, none, none, none, none, none, none, none⟩

def draftFields : List (Decoder.Field Draft) :=
  [Decoder.field "command" false Decoder.text (·.command) fun d x => { d with command := some x },
   Decoder.field "stdout" false Decoder.text (·.stdout) fun d x => { d with stdout := some x },
   Decoder.field "stderr" false Decoder.text (·.stderr) fun d x => { d with stderr := some x },
   Decoder.field "exit_code" false (Decoder.integer (-2147483648) 2147483647) (·.exitCode)
     fun d x => { d with exitCode := some x },
   Decoder.field "cwd" false Decoder.text (·.directory) fun d x => { d with directory := some x },
   Decoder.field "duration_ms" false (Decoder.natural 64) (·.durationMs)
     fun d x => { d with durationMs := some x },
   Decoder.field "success" false Decoder.bool (·.success) fun d x => { d with success := some x },
   Decoder.field "timed_out" false Decoder.bool (·.timedOut)
       fun d x => { d with timedOut := some x },
   Decoder.field "denied" false Decoder.bool (·.denied) fun d x => { d with denied := some x },
   Decoder.field "pid" false (Decoder.nullable (Decoder.natural 32)) (·.pid)
     fun d x => { d with pid := some x }]

/-- Every member is required but the process id. -/
def Draft.finish (d : Draft) : Option CommandRecord := do
  return ⟨← d.command, ← d.stdout, ← d.stderr, ← d.exitCode, .ofText (← d.directory),
    ← d.durationMs, ← d.success, ← d.timedOut, ← d.denied, d.pid.getD none⟩

def decoder : Decoder CommandRecord :=
  Decoder.record draftFields Draft.blank Draft.finish

end CommandRecord
end Agentry
