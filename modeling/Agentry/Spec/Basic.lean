import Agentry.Spec.Schema
/-!
# Agent specs

A spec says what an agent is: its name, what it does, its version, its prompt, the tools it may use,
and the schemas of its input and its output. `validate` finds the first reason not to accept one.
-/
namespace Agentry

/-- A tool that an agent may call. Only its id matters here. -/
structure Tool where
  id : String
  displayName : String
  category : String
  deriving DecidableEq, Repr

/-- A tool known by its id alone, which is also how it is displayed. -/
def Tool.ofId (id : String) : Tool := ⟨id, id, ""⟩

structure AgentSpec where
  name : String
  description : String
  version : String
  prompt : String
  tools : List Tool
  inputs : Schema
  outputs : Schema
  deriving DecidableEq, Repr

namespace AgentSpec

def new (name description version : String) : AgentSpec :=
  ⟨name, description, version, "", [], .empty, .empty⟩

def withPrompt (spec : AgentSpec) (prompt : String) : AgentSpec :=
  { spec with prompt }

def withTool (spec : AgentSpec) (tool : Tool) : AgentSpec :=
  { spec with tools := spec.tools ++ [tool] }

def withInput (spec : AgentSpec) (name : String) (field : FieldSpec) : AgentSpec :=
  { spec with inputs := spec.inputs.insert name field }

def withOutput (spec : AgentSpec) (name : String) (field : FieldSpec) : AgentSpec :=
  { spec with outputs := spec.outputs.insert name field }

def hasTool (spec : AgentSpec) (id : String) : Bool :=
  spec.tools.any (·.id == id)

def WellFormed (spec : AgentSpec) : Prop :=
  spec.inputs.WellFormed ∧ spec.outputs.WellFormed

instance (spec : AgentSpec) : Decidable spec.WellFormed :=
  inferInstanceAs (Decidable (spec.inputs.WellFormed ∧ spec.outputs.WellFormed))

/-- The first tool whose id is blank or stands earlier in the list. -/
def validateTools (seen : List String) : List Tool → Except SpecError Unit
  | [] => .ok ()
  | tool :: rest =>
    if Text.isAllBlank tool.id then .error (.emptyField "tool id")
    else if seen.contains tool.id then .error (.duplicateTool tool.id)
    else validateTools (tool.id :: seen) rest

def validate (spec : AgentSpec) : Except SpecError Unit :=
  if Text.isAllBlank spec.name then .error (.emptyField "name")
  else if Text.isAllBlank spec.description then .error (.emptyField "description")
  else if Text.isAllBlank spec.version then .error (.emptyField "version")
  else validateTools [] spec.tools

end AgentSpec
end Agentry
