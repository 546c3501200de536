import Agentry.Artifact.Balanced
import Agentry.Artifact.Label
import Agentry.Artifact.Template
/-!
# Artifacts read back

Reading an artifact never fails. The prompt is found first. Every other part is looked for outside
the prompt's literal, in the text before it and then in the text after it, so that a prompt cannot
stand in for a label. A part that cannot be read is empty and is reported, and the others are read
all the same. The tools and the schemas are delimited by a balanced scan, which may run on through
the rest of the whole text.
-/
namespace Agentry

open Json (Decoder DecodeError)

/-- The parts of a spec, in the order in which they are read. -/
inductive SpecPart where
  | prompt
  | name
  | description
  | version
  | tools
  | inputs
  | outputs
  deriving DecidableEq, Repr

def SpecPart.label : SpecPart → String
  | .prompt => "system_prompt"
  | .name => "name"
  | .description => "description"
  | .version => "version"
  | .tools => "tools"
  | .inputs => "input_schema"
  | .outputs => "output_schema"

/-- The labels that introduce a part. -/
def SpecPart.labels : SpecPart → List String
  | .prompt => ["system_prompt", "systemPrompt"]
  | .inputs => ["input_schema", "inputSchema"]
  | .outputs => ["output_schema", "outputSchema"]
  | part => [part.label]

inductive IssueCause where
  | labelNotFound
  | unterminated
  | unbalanced (cause : ScanError)
  | undecodable (cause : DecodeError)
  deriving DecidableEq, Repr

def IssueCause.message : IssueCause → String
  | .labelNotFound => "label not found"
  | .unterminated => "raw literal is not terminated"
  | .unbalanced cause => cause.message
  | .undecodable (.duplicateField name) =>
    "undecodable literal: " ++ (DecodeError.duplicateField name).message
  | .undecodable .malformed => "undecodable literal"

/-- A part that could not be read, and why. -/
structure PartIssue where
  part : SpecPart
  cause : IssueCause
  deriving DecidableEq, Repr

/-- What the digest in the header says about the spec that was read. -/
inductive DigestStatus where
  | matching
  | edited
  | missing
  deriving DecidableEq, Repr

def DigestStatus.name : DigestStatus → String
  | .matching => "matches"
  | .edited => "edited"
  | .missing => "missing"

structure ParsedArtifact where
  spec : AgentSpec
  issues : List PartIssue
  digest : DigestStatus
  deriving DecidableEq, Repr

def ParsedArtifact.isClean (parsed : ParsedArtifact) : Bool :=
  parsed.issues.isEmpty

namespace Artifact

/-- A text around the literal of its prompt. Without such a literal all of it stands before. -/
structure Regions where
  before : List Char
  literal : List Char
  after : List Char

def Regions.whole (cs : List Char) : Regions := ⟨cs, [], []⟩

/-- The regions around the literal that `start` begins with and `after` follows, both suffixes of
the text. -/
def Regions.around (cs start after : List Char) : Regions :=
  ⟨cs.take (cs.length - start.length), start.take (start.length - after.length), after⟩

/-- A value read from its literal, or why it was not. -/
abbrev Reading (α : Type) := Except IssueCause α

def decoded (decoder : Decoder α) (literal : List Char) : Reading α :=
  match decoder.run literal with
  | .ok a => .ok a
  | .error cause => .error (.undecodable cause)

/-- The prompt as a quoted literal, which may go on over several lines. -/
def quotedPrompt (cs : List Char) : Reading String × Regions :=
  let found := Label.find SpecPart.prompt.labels (fun rest =>
    (Label.quotedLiteral (fun _ => true) rest).map fun (literal, after) =>
      (rest, literal, after)) cs
  match found with
  | some (start, literal, after) => (decoded Decoder.text literal, .around cs start after)
  | none => (.error .labelNotFound, .whole cs)

/-- The prompt as a raw literal, or else as a quoted one. -/
def findPrompt (cs : List Char) : Reading String × Regions :=
  let found := Label.find SpecPart.prompt.labels (fun rest =>
    (Label.rawOpening rest).map fun (hashes, body) => (rest, hashes, body)) cs
  match found with
  | some (start, hashes, body) =>
    match Text.cut ('"' :: hashes) body with
    | some (prompt, after) => (.ok (String.ofList prompt), .around cs start after)
    | none => (.error .unterminated, .whole cs)
  | none => quotedPrompt cs

/-- A part that is a quoted literal on the line of its label. -/
def scalar (part : SpecPart) (regions : Regions) : Reading String :=
  let literal := Label.quotedLiteral (· != '\n')
  match (Label.find part.labels literal regions.before).or
      (Label.find part.labels literal regions.after) with
  | some (literal, _) => decoded Decoder.text literal
  | none => .error .labelNotFound

/-- What follows the label of a part, to the end of the whole text. -/
def afterPart (part : SpecPart) (regions : Regions) : Option (List Char) :=
  match Label.find part.labels some regions.before with
  | some rest => some (rest ++ regions.literal ++ regions.after)
  | none => Label.find part.labels some regions.after

/-- A part that is a document between two delimiters. -/
def structured (part : SpecPart) (opening closing : Char) (decoder : Decoder α)
    (regions : Regions) : Reading α :=
  match afterPart part regions with
  | none => .error .labelNotFound
  | some rest =>
    match Balanced.span opening closing rest with
    | .error cause => .error (.unbalanced cause)
    | .ok span => decoded decoder span.literal

/-- The digest of the first header line that carries one. -/
def stampedDigest (cs : List Char) : Option (List Char) :=
  (Text.lines cs).findSome? fun line =>
    (Label.dropText digestMarker.toList (Text.trimLeft line)).map Text.trimChars

def digestStatus (cs : List Char) (spec : AgentSpec) : DigestStatus :=
  match stampedDigest cs with
  | some stamped => if stamped = spec.digest.toList then .matching else .edited
  | none => .missing

def issueOf (part : SpecPart) : Reading α → List PartIssue
  | .ok _ => []
  | .error cause => [⟨part, cause⟩]

def valueOr (default : α) : Reading α → α
  | .ok a => a
  | .error _ => default

def parseChars (cs : List Char) : ParsedArtifact :=
  let (prompt, regions) := findPrompt cs
  let name := scalar .name regions
  let description := scalar .description regions
  let version := scalar .version regions
  let tools := structured .tools '[' ']' (Decoder.list Tool.decoder) regions
  let inputs := structured .inputs '\x7b' '\x7d' Schema.decoder regions
  let outputs := structured .outputs '\x7b' '\x7d' Schema.decoder regions
  let spec : AgentSpec :=
    ⟨valueOr "" name, valueOr "" description, valueOr "" version, valueOr "" prompt,
      valueOr [] tools, valueOr .empty inputs, valueOr .empty outputs⟩
  { spec
    issues := issueOf .prompt prompt ++ issueOf .name name ++ issueOf .description description ++
      issueOf .version version ++ issueOf .tools tools ++ issueOf .inputs inputs ++
      issueOf .outputs outputs
    digest := digestStatus cs spec }

def parse (text : String) : ParsedArtifact :=
  parseChars text.toList

def parseSpec (text : String) : AgentSpec :=
  (parse text).spec

end Artifact

/-- The literals of an artifact as the running program has them. -/
structure ArtifactTexts where
  name : String
  description : String
  version : String
  prompt : String
  tools : String
  inputs : String
  outputs : String

/-- The spec of an artifact that runs. A document that does not decode is empty, and the second
component names the parts where that happened. -/
def AgentSpec.ofTexts (texts : ArtifactTexts) : AgentSpec × List SpecPart :=
  let tools := Json.decode (Decoder.list Tool.decoder) texts.tools
  let inputs := Json.decode Schema.decoder texts.inputs
  let outputs := Json.decode Schema.decoder texts.outputs
  let fault {α : Type} (part : SpecPart) : Except DecodeError α → List SpecPart
    | .ok _ => []
    | .error _ => [part]
  (⟨texts.name, texts.description, texts.version, texts.prompt, tools.toOption.getD [],
      inputs.toOption.getD .empty, outputs.toOption.getD .empty⟩,
    fault .tools tools ++ fault .inputs inputs ++ fault .outputs outputs)

end Agentry
