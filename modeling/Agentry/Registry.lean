import Agentry.Error
import Agentry.Invocation.Run
/-!
# The registry

A registry binds ids to agents. A binding is made once and stays. An agent is found under its id, or
under the slug of what was asked for.
-/
namespace Agentry

structure RegisteredAgent (σ : Type) where
  spec : AgentSpec
  behavior : Behavior σ

structure Registry (σ : Type) where
  agents : List (String × RegisteredAgent σ)
  config : RunConfig

namespace Registry

def empty (config : RunConfig) : Registry σ := ⟨[], config⟩

def get? (registry : Registry σ) (id : String) : Option (RegisteredAgent σ) :=
  (registry.agents.find? (·.1 == id)).map (·.2)

def size (registry : Registry σ) : Nat := registry.agents.length

def isEmpty (registry : Registry σ) : Bool := registry.agents.isEmpty

/-- The ids in ascending order. -/
def ids (registry : Registry σ) : List String :=
  (registry.agents.map (·.1)).mergeSort fun a b => decide (a ≤ b)

/-- Binds an id that is not empty and not bound yet. -/
def registerAs (registry : Registry σ) (id : String) (agent : RegisteredAgent σ) :
    Except AgentError (Registry σ) :=
  if id.isEmpty then .error (.invalidSpec (.emptyField "slug"))
  else if (registry.get? id).isSome then .error (.alreadyRegistered id)
  else .ok { registry with agents := registry.agents ++ [(id, agent)] }

/-- Binds the slug of the agent's name. -/
def register (registry : Registry σ) (agent : RegisteredAgent σ) : Except AgentError (Registry σ) :=
  registry.registerAs (slugify agent.spec.name) agent

/-- Binds an id to a spec with the behavior that its tools ask for. -/
def registerSpec (registry : Registry σ) (id : String) (spec : AgentSpec) :
    Except AgentError (Registry σ) :=
  registry.registerAs id ⟨spec, Behavior.ofSpec spec⟩

/-- What a registration under an id tells. -/
def registration (id : String) (spec : AgentSpec) : Event := .registered id spec.name

/-- The agent that an id or a display name asks for, and the id it is bound to. -/
def resolve (registry : Registry σ) (id : String) : Option (String × RegisteredAgent σ) :=
  match registry.get? id with
  | some agent => some (id, agent)
  | none => (registry.get? (slugify id)).map (slugify id, ·)

/-- Runs the agent that an id asks for. -/
def invoke (registry : Registry σ) (platform : Platform σ) (sandbox : Sandbox) (stamp : RunStamp)
    (id : String) (arguments : List String) (world : σ) : RunResult × List Event × σ :=
  match registry.resolve id with
  | some (_, agent) =>
    let report := (Runner.new agent.spec agent.behavior registry.config).report platform sandbox
      stamp arguments world
    (report.result, report.events.map .run, report.world)
  | none => (⟨id, stamp, .failed ("unknown agent: " ++ id)⟩, [.unknownAgent id], world)

end Registry
end Agentry
