import Agentry.Error
import Agentry.Slug
import Agentry.Spec.Digest
import Agentry.Text.Search
/-!
# Artifacts

An artifact is the source text of an agent. Its header carries the digest of the spec, and each part
of the spec is a literal after a label on a line of its own. The rest is fixed but for the slug and
the name of the behavior type, which is the slug in capitalised words.
-/
namespace Agentry

structure Artifact where
  slug : String
  fileName : String
  digest : String
  source : String
  deriving DecidableEq, Repr

namespace Artifact

def version : String := "0.1.0"

/-- What the name of every artifact file ends in. -/
def fileSuffix : String := ".agent.rs"

def fileNameOf (slug : String) : String :=
  slug ++ fileSuffix

/-- What a header line with a digest starts with. -/
def digestMarker : String := "// spec-digest: "

/-- The indentation of the rows of a document. -/
def indent : List Char := List.replicate 8 ' '

def capitalised : List Char → List Char
  | [] => []
  | c :: rest => Text.asciiUpper c :: rest

/-- A type name cannot start with a digit and cannot be `Self`. -/
def typeNameChars (slug : List Char) : List Char :=
  let name := (Text.splitOn '-' slug).flatMap capitalised
  let name := if (name.head?.map Json.isDigit).getD false then "Agent".toList ++ name else name
  if name = "Self".toList then name ++ "Agent".toList else name

def typeName (slug : String) : String :=
  String.ofList (typeNameChars slug.toList)

/-- The literals of the seven parts of a spec. -/
structure Literals where
  name : List Char
  description : List Char
  version : List Char
  prompt : List Char
  tools : List Char
  inputs : List Char
  outputs : List Char

/-- A line that holds a label and its literal. -/
def labelled (label : String) (literal : List Char) : List Char :=
  indent ++ label.toList ++ ": ".toList ++ literal ++ ",\n".toList

def fields (l : Literals) : List Char :=
  labelled "name" l.name ++ labelled "description" l.description ++ labelled "version" l.version ++
    labelled "system_prompt" l.prompt ++ labelled "tools" l.tools ++
    labelled "input_schema" l.inputs ++ labelled "output_schema" l.outputs

def header (digest : String) (slug : List Char) : List Char :=
  "// @generated by agentc ".toList ++ version.toList ++
  ("\n// Labelled literals below are read back by `agentc show`; " ++
    "keep each label on its own line.\n").toList ++
  digestMarker.toList ++ digest.toList ++
  "\n\nuse agentc_core::prelude::*;\n\npub const SLUG: &str = ".toList ++ slug ++
  ";\n\npub fn spec() -> AgentSpec \x7b\n".toList ++
  "    AgentSpec::from_artifact(ArtifactLiterals \x7b\n".toList

def footer (typeName : List Char) : List Char :=
  "    \x7d)\n\x7d\n\npub struct ".toList ++ typeName ++
  ";\n\n#[async_trait]\nimpl AgentBehavior for ".toList ++ typeName ++
  " \x7b\n    async fn execute(&self, ctx: &mut AgentContext, input: AgentInput)".toList ++
  " -> AgentOutcome \x7b\n".toList ++
  "        Ok(json!(\x7b\n            \"agent\": ctx.agent_name(),\n".toList ++
  "            \"input\": input.to_value(),\n        \x7d))\n    \x7d\n\x7d\n\n".toList ++
  "pub fn register(registry: &mut AgentRegistry) -> agentc_core::Result<()> \x7b\n".toList ++
  "    registry.register_as(SLUG, spec(), std::sync::Arc::new(".toList ++ typeName ++
  "))\n\x7d\n".toList

def sourceOf (digest : String) (slug : String) (l : Literals) : List Char :=
  header digest (Literal.quoted slug) ++ fields l ++ footer (typeNameChars slug.toList)

end Artifact

namespace AgentSpec

def literals (spec : AgentSpec) : Except LiteralError Artifact.Literals := do
  Literal.checkWritable "name" spec.name
  Literal.checkWritable "description" spec.description
  Literal.checkWritable "version" spec.version
  let prompt ← Literal.prompt spec.prompt
  let tools ← Literal.document (Literal.toolsJson spec.tools Artifact.indent)
  let inputs ← Literal.document (Literal.schemaJson spec.inputs Artifact.indent)
  let outputs ← Literal.document (Literal.schemaJson spec.outputs Artifact.indent)
  return ⟨Literal.quoted spec.name, Literal.quoted spec.description, Literal.quoted spec.version,
    prompt, tools, inputs, outputs⟩

/-- The artifact of a spec under a slug. The spec is checked first, then the slug, then whether
every part has a literal. -/
def renderAs (spec : AgentSpec) (slug : String) : Except AgentError Artifact :=
  match spec.validate with
  | .error cause => .error (.invalidSpec cause)
  | .ok () =>
    if slug.isEmpty then .error (.invalidSpec (.emptyField "slug"))
    else
      match spec.literals with
      | .error cause => .error (.unwritable cause)
      | .ok literals =>
        .ok ⟨slug, Artifact.fileNameOf slug, spec.digest,
          String.ofList (Artifact.sourceOf spec.digest slug literals)⟩

/-- The artifact of a spec under the slug of its name. -/
def render (spec : AgentSpec) : Except AgentError Artifact :=
  spec.renderAs (slugify spec.name)

end AgentSpec
end Agentry
