import Agentry.Invocation.Coercion
import Agentry.Invocation.Result
import Agentry.Sandbox.Basic
import Agentry.Sandbox.Directory
import Agentry.Spec.Basic
/-!
# Behaviors

A behavior is what an agent does with its input. It runs in a context, which has a directory of its
own: it starts at the directory of the sandbox, and its changes are seen by nobody else. A behavior
comes to a conclusion, and the only events it can cause are those of its commands.
-/
namespace Agentry

open Json (Value)

/-- What the world outside offers. -/
structure Platform (σ : Type) where
  start : Starter σ
  changeDirectory : σ → OsPath → OsPath → Except DirectoryError OsPath

inductive BehaviorError where
  | message (text : String)
  | command (text : String)
  | other (text : String)
  deriving DecidableEq, Repr

def BehaviorError.text : BehaviorError → String
  | .message text => text
  | .command text => "command failed: " ++ text
  | .other text => text

/-- What a panic leaves behind: a text that is lent or one that is handed over, or something that
cannot be shown. -/
inductive PanicPayload where
  | borrowed (text : String)
  | owned (text : String)
  | other
  deriving DecidableEq, Repr

def PanicPayload.message : PanicPayload → String
  | .borrowed text => text
  | .owned text => text
  | .other => "unknown panic payload"

inductive Conclusion where
  | returned (output : Value)
  | failed (cause : BehaviorError)
  | panicked (payload : PanicPayload)

/-- What a behavior sees of its invocation. -/
structure Context where
  spec : AgentSpec
  id : RunId
  sandbox : Sandbox
  directory : OsPath

namespace Context

def new (spec : AgentSpec) (id : RunId) (sandbox : Sandbox) : Context :=
  ⟨spec, id, sandbox, sandbox.directory⟩

def changeDirectory (context : Context) (platform : Platform σ) (world : σ) (path : OsPath) :
    Except DirectoryError Context :=
  (platform.changeDirectory world context.directory path).map
    fun directory => { context with directory }

/-- Runs a command in the directory of the context, unless the call has one of its own. -/
def run (context : Context) (platform : Platform σ) (command : String) (arguments : List String)
    (options : ExecOptions) (world : σ) : CommandRecord × List CommandEvent × σ :=
  context.sandbox.execute platform.start command arguments
    { options with directory := some (options.directory.getD context.directory) } world

end Context

abbrev Behavior (σ : Type) :=
  Platform σ → Context → Input → σ → Conclusion × List CommandEvent × σ

namespace Behavior

/-- Returns who the agent is and what it was given. -/
def echo : Behavior σ := fun _ context input world =>
  (.returned (.object [("agent", .string context.spec.name),
    ("systemPrompt", .string context.spec.prompt), ("input", input.toJson)]), [], world)

/-- The command to run, unless it is blank. -/
def commandOf (input : Input) : Option String :=
  (input.text? "command").filter fun command => !Text.isAllBlank command

/-- The directory to change to first. -/
def directoryOf (input : Input) : Option OsPath :=
  ((input.text? "cwd").filter fun path => !path.isEmpty).map .ofText

/-- Why a command failed: what it said, or else its exit code. -/
def failureReason (record : CommandRecord) : String :=
  if record.stderr.isEmpty then
    "'" ++ record.command ++ "' exited with " ++ toString record.exitCode
  else Text.trim record.stderr

/-- A record that cannot be written as a document fails a command that went well. -/
def concludeCommand (record : CommandRecord) : Conclusion :=
  if record.success then
    match record.toJson with
    | .ok output => .returned output
    | .error cause => .failed (.other cause.message)
  else .failed (.command (failureReason record))

def moved (platform : Platform σ) (context : Context) (world : σ) :
    Option OsPath → Except DirectoryError Context
  | none => .ok context
  | some path => context.changeDirectory platform world path

/-- Runs the command of the input, after a change of directory if the input asks for one. -/
def command : Behavior σ := fun platform context input world =>
  match commandOf input with
  | none => (.failed (.message "input field 'command' is required"), [], world)
  | some command =>
    match moved platform context world (directoryOf input) with
    | .error cause => (.failed (.command cause.message), [], world)
    | .ok context =>
      let (record, events, world) :=
        context.run platform command ((input.list? "args").getD []) .plain world
      (concludeCommand record, events, world)

/-- The tool that makes an agent run commands. -/
def commandTool : String := "command_sandbox"

/-- The behavior of an agent that is known by its spec alone. -/
def ofSpec (spec : AgentSpec) : Behavior σ :=
  if spec.hasTool commandTool then command else echo

end Behavior
end Agentry
