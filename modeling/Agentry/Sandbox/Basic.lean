import Agentry.Event
import Agentry.Sandbox.Denylist
import Agentry.Sandbox.Record
import Agentry.Text.Utf8
/-!
# The sandbox

A sandbox runs commands. Commands on the denylist are refused before anything is started, unless the
sandbox or the call allows them. Whatever happens, the answer is a record; what the sandbox has to
say about the command comes last in its standard error.

The platform starts programs. It answers with an attempt, and the sandbox is a function of that
answer.
-/
namespace Agentry

open Json (Value Decoder)

structure SandboxConfig where
  timeoutMs : Nat
  allowUnsafe : Bool
  deriving DecidableEq, Repr

namespace SandboxConfig

def standard : SandboxConfig := ⟨30000, false⟩

def toJson (config : SandboxConfig) : Value :=
  .object [("timeout_ms", .ofNat config.timeoutMs), ("allow_unsafe", .bool config.allowUnsafe)]

structure Draft where
  timeoutMs : Option Nat
  allowUnsafe : Option Bool

def decoder : Decoder SandboxConfig :=
  Decoder.record
    [Decoder.field "timeout_ms" false (Decoder.natural 64) (·.timeoutMs)
       fun (d : Draft) x => { d with timeoutMs := some x },
     Decoder.field "allow_unsafe" false Decoder.bool (·.allowUnsafe)
       fun d x => { d with allowUnsafe := some x }]
    ⟨none, none⟩ fun d => do return ⟨← d.timeoutMs, ← d.allowUnsafe⟩

end SandboxConfig

/-- What one call says for itself. -/
structure ExecOptions where
  directory : Option OsPath
  timeoutMs : Option Nat
  allowUnsafe : Bool
  environment : List (String × String)
  deriving DecidableEq, Repr

/-- A call that asks for nothing special. -/
def ExecOptions.plain : ExecOptions := ⟨none, none, false, []⟩

/-- A program to start, and for how long it may run. -/
structure ProgramCall where
  program : String
  arguments : List String
  directory : OsPath
  environment : List (String × String)
  limitMs : Nat
  deriving DecidableEq, Repr

/-- How a program that was started ended. -/
inductive Ending where
  | exited (code : UInt8) (captureFault : Option IoError)
  | signalled (captureFault : Option IoError)
  | unwaitable (cause : IoError)
  | timedOut (killFault : Option IoError)
  deriving DecidableEq, Repr

/-- What came of a program call. -/
inductive Attempt where
  | notStarted (cause : IoError)
  | ran (pid : Option Nat) (elapsedMs : Nat) (stdout stderr : ByteArray) (ending : Ending)

/-- Something that starts programs, in a world `σ` that they may change. -/
abbrev Starter (σ : Type) := ProgramCall → σ → Attempt × σ

namespace Ending

def exitCode : Ending → Int
  | .exited code _ => code.toNat
  | _ => -1

def success : Ending → Bool
  | .exited code _ => code = 0
  | _ => false

def timedOutFlag : Ending → Bool
  | .timedOut _ => true
  | _ => false

def captureNote (fault : Option IoError) : Option String :=
  fault.map fun cause => "output capture failed: " ++ cause.message

/-- What the sandbox adds to standard error. -/
def note (limitMs : Nat) : Ending → Option String
  | .exited _ fault => captureNote fault
  | .signalled fault => captureNote fault
  | .unwaitable cause => some ("failed to wait for command: " ++ cause.message)
  | .timedOut _ => some ("command timed out after " ++ toString limitMs ++ "ms")

def events (line : String) (limitMs : Nat) : Ending → List CommandEvent
  | .timedOut none => [.timedOut line limitMs]
  | .timedOut (some _) => [.notKilled line, .timedOut line limitMs]
  | _ => []

end Ending

/-- A note on a line of its own at the end of a text. -/
def withNote (stderr : String) : Option String → String
  | none => stderr
  | some note =>
    if stderr.isEmpty || stderr.toList.getLast? = some '\n' then stderr ++ note
    else stderr ++ "\n" ++ note

/-- A sandbox and the directory that all its users share. -/
structure Sandbox where
  config : SandboxConfig
  directory : OsPath
  deriving DecidableEq, Repr

/-- A command and its arguments on one line. -/
def commandLine (command : String) (arguments : List String) : String :=
  " ".intercalate (command :: arguments)

namespace CommandRecord

/-- The record of a command that did not run. -/
def failure (line : String) (directory : OsPath) (stderr : String) (denied : Bool) : CommandRecord :=
  ⟨line, "", stderr, -1, directory, 0, false, false, denied, none⟩

def ofAttempt (call : ProgramCall) (line : String) :
    Attempt → CommandRecord × List CommandEvent
  | .notStarted cause =>
    (failure line call.directory
      ("failed to spawn '" ++ call.program ++ "': " ++ cause.message) false, [.notSpawned line])
  | .ran pid elapsed stdout stderr ending =>
    (⟨line, Text.decodeLossy stdout, withNote (Text.decodeLossy stderr) (ending.note call.limitMs),
        ending.exitCode, call.directory, elapsed, ending.success, ending.timedOutFlag, false, pid⟩,
      ending.events line call.limitMs ++ [.finished line ending.exitCode])

end CommandRecord

namespace Sandbox

def refusal (command entry : String) : String :=
  "command '" ++ command ++ "' refused: matches denylisted pattern '" ++ entry ++
    "' (destructive commands require an explicit unsafe override)"

/-- The denylist entry that a command is refused for. -/
def refusedFor (sandbox : Sandbox) (command : String) (options : ExecOptions) : Option String :=
  if options.allowUnsafe || sandbox.config.allowUnsafe then none else Denylist.matching command

def call (sandbox : Sandbox) (command : String) (arguments : List String) (options : ExecOptions) :
    ProgramCall :=
  ⟨command, arguments, options.directory.getD sandbox.directory, options.environment,
    options.timeoutMs.getD sandbox.config.timeoutMs⟩

def execute (sandbox : Sandbox) (start : Starter σ) (command : String) (arguments : List String)
    (options : ExecOptions) (world : σ) : CommandRecord × List CommandEvent × σ :=
  let call := sandbox.call command arguments options
  let line := commandLine command arguments
  match sandbox.refusedFor command options with
  | some entry =>
    (.failure line call.directory (refusal command entry) true, [.denied line entry], world)
  | none =>
    let (attempt, world) := start call world
    let (record, events) := CommandRecord.ofAttempt call line attempt
    (record, events, world)

end Sandbox
end Agentry
