import Agentry.Invocation.Behavior
/-!
# Runs

A run coerces its arguments, executes a behavior on the input and ends in a result, also when the
behavior panics. It tells each of its states in an event.
-/
namespace Agentry

/-- An agent that is ready to run, and the state that its last run reached. -/
structure Runner (σ : Type) where
  spec : AgentSpec
  behavior : Behavior σ
  config : RunConfig
  state : RunState

namespace Runner

def new (spec : AgentSpec) (behavior : Behavior σ) (config : RunConfig) : Runner σ :=
  ⟨spec, behavior, config, .created⟩

def panicText (message : String) : String := "agent panicked: " ++ message

def outcomeOf : Conclusion → RunOutcome
  | .returned output => .succeeded output
  | .failed cause => .failed cause.text
  | .panicked payload => .failed (panicText payload.message)

def panicEvents (agent : String) : Conclusion → List RunEvent
  | .panicked payload => [.panicked agent payload.message]
  | _ => []

/-- The state that a run ends in. -/
def finalState (result : RunResult) : RunState :=
  if result.isSuccess then .succeeded else .failed

def surplusEvents (schema : Schema) (arguments : List String) : List RunEvent :=
  if arguments.length > schema.size then [.surplusArguments (Input.surplus schema arguments)]
  else []

/-- Goes over to a state and tells from which. -/
def transition (runner : Runner σ) (next : RunState) : RunEvent × Runner σ :=
  (.moved runner.spec.name runner.state next, { runner with state := next })

/-- The last transition of a run, and the end of it. -/
def finish (runner : Runner σ) (result : RunResult) : List RunEvent × Runner σ :=
  let (moved, runner) := runner.transition (finalState result)
  ([moved, .finished runner.spec.name result.isSuccess], runner)

/-- What came of a run. -/
structure Report (σ : Type) where
  result : RunResult
  events : List RunEvent
  world : σ

/-- Runs an agent once. The state that an earlier run left is forgotten at the start. -/
def run (runner : Runner σ) (platform : Platform σ) (sandbox : Sandbox) (stamp : RunStamp)
    (arguments : List String) (world : σ) : Report σ × Runner σ :=
  let spec := runner.spec
  let runner := { runner with state := .created }
  let started : RunEvent := .started spec.name arguments.length
  match Input.coerce spec.inputs arguments runner.config.strictNumbers with
  | .error cause =>
    let result : RunResult := ⟨spec.name, stamp, .failed cause.message⟩
    let (ending, runner) := runner.finish result
    (⟨result, started :: ending, world⟩, runner)
  | .ok input =>
    let surplus := surplusEvents spec.inputs arguments
    let (coerced, runner) := runner.transition .inputCoerced
    let (executing, runner) := runner.transition .executing
    let (conclusion, commands, world) :=
      runner.behavior platform (Context.new spec stamp.id sandbox) input world
    let result : RunResult := ⟨spec.name, stamp, outcomeOf conclusion⟩
    let (ending, runner) := runner.finish result
    (⟨result,
      started :: surplus ++ coerced :: executing :: commands.map .command ++
        panicEvents spec.name conclusion ++ ending,
      world⟩, runner)

/-- What comes of one run, whatever the agent is used for after it. -/
def report (runner : Runner σ) (platform : Platform σ) (sandbox : Sandbox) (stamp : RunStamp)
    (arguments : List String) (world : σ) : Report σ :=
  (runner.run platform sandbox stamp arguments world).1

end Runner
end Agentry
