import Agentry.Cli.Reply
import Agentry.Cli.Request
import Agentry.Response
import Agentry.Store.Basic
/-!
# Creating agents

A field is given as its name, its type and perhaps a description, with colons between them; an
exclamation mark behind the type makes it required. Blanks around the three do not count. The spec
of a new agent comes from its parts or from a file.
-/
namespace Agentry.Cli

open Json (DecodeError)

inductive FieldTrouble where
  | shapeless (text : String)
  | invalid (cause : SpecError)
  deriving DecidableEq, Repr

def FieldTrouble.message : FieldTrouble → String
  | .shapeless text => "field '" ++ text ++ "' must look like name:type"
  | .invalid cause => cause.message

/-- A type without the mark of a required field, and whether it had one. -/
def splitMark (kind : List Char) : List Char × Bool :=
  let trimmed := Text.trimChars kind
  if trimmed.getLast? = some '!' then (trimmed.dropLast, true) else (kind, false)

def fieldOf (rest : List Char) : Except SpecError FieldSpec :=
  let (kind, description) := (Text.cut [':'] rest).getD (rest, [])
  let (kind, required) := splitMark kind
  (FieldType.parse (String.ofList kind)).map fun type =>
    ⟨type, required, String.ofList (Text.trimChars description)⟩

def parseField (text : String) : Except FieldTrouble (String × FieldSpec) :=
  match Text.cut [':'] text.toList with
  | none => .error (.shapeless text)
  | some (name, rest) =>
    let name := Text.trimChars name
    if name.isEmpty then .error (.invalid (.emptyField "field name"))
    else
      match fieldOf rest with
      | .error cause => .error (.invalid cause)
      | .ok field => .ok (String.ofList name, field)

/-- The schema of some fields, each added to those before it. -/
def extendSchema (label : String) : Schema → List String → Except FieldTrouble Schema
  | schema, [] => .ok schema
  | schema, text :: rest =>
    match parseField text with
    | .error trouble => .error trouble
    | .ok (name, field) =>
      if schema.contains name then .error (.invalid (.duplicateField label name))
      else extendSchema label (schema.insert name field) rest

def parseSchema (label : String) (fields : List String) : Except FieldTrouble Schema :=
  extendSchema label .empty fields

/-- The prompt of an agent that is given none. -/
def standardPrompt (agent : NewAgent) : String :=
  "You are " ++ agent.name ++ ". " ++ agent.description

def readNamed (what path : String) (disk : Disk) : Except Trouble String × Disk :=
  match disk.readText path with
  | (.ok text, disk) => (.ok text, disk)
  | (.error cause, disk) =>
    (.error (.within ("failed to read " ++ what ++ " file " ++ path) (.plain cause.message)), disk)

def promptOf (agent : NewAgent) (disk : Disk) : Except Trouble String × Disk :=
  match agent.prompt with
  | .text prompt => (.ok prompt, disk)
  | .file path => readNamed "prompt" path disk
  | .standard => (.ok (standardPrompt agent), disk)

def specOfParts (agent : NewAgent) (prompt : String) : Except FieldTrouble AgentSpec := do
  let inputs ← parseSchema "input_schema" agent.inputs
  let outputs ← parseSchema "output_schema" agent.outputs
  return ⟨agent.name, agent.description, agent.version, prompt, agent.tools.map Tool.ofId, inputs,
    outputs⟩

def decodeSpec (path text : String) : Except Trouble AgentSpec :=
  (Json.decode AgentSpec.decoder text).mapError fun cause =>
    .within ("failed to parse spec file " ++ path) (.plain cause.message)

def specOf (source : SpecSource) (disk : Disk) : Except Trouble AgentSpec × Disk :=
  match source with
  | .file path =>
    match readNamed "spec" path disk with
    | (.ok text, disk) => (decodeSpec path text, disk)
    | (.error trouble, disk) => (.error trouble, disk)
  | .parts agent =>
    match promptOf agent disk with
    | (.ok prompt, disk) =>
      ((specOfParts agent prompt).mapError fun trouble => .plain trouble.message, disk)
    | (.error trouble, disk) => (.error trouble, disk)

def shown (response : Response) : String := response.toJson.prettyText ++ "\n"

/-- The name of a written file. -/
def fileNameOf (written : Written) : String :=
  String.ofList ((Path.fileName written.path.toList).getD [])

def writtenText (written : Written) : String :=
  written.outcome.name ++ " " ++ written.path ++ " (" ++ written.slug ++ ")\nDigest: " ++
    written.digest ++ "\n"

def create (settings : Settings) (source : SpecSource) (policy : CollisionPolicy) (disk : Disk) :
    Reply × Disk :=
  match specOf source disk with
  | (.error trouble, disk) =>
    (if settings.json then .failed (shown (.failed "invalid_request" trouble.line))
      else trouble.reply, disk)
  | (.ok spec, disk) =>
    let store : Store := ⟨settings.registry, policy⟩
    match store.write spec ⟨disk, []⟩ with
    | (.ok written, bench) =>
      (.ok (if settings.json then shown (.ofFileName (fileNameOf written))
          else writtenText written),
        bench.disk)
    | (.error cause, bench) =>
      (if settings.json then .failed (shown (.ofError cause))
        else (Trouble.within ("failed to create agent '" ++ spec.name ++ "'")
          (.ofError cause)).reply, bench.disk)

end Agentry.Cli
