import Agentry.Json.Canonical
import Agentry.Sha256
import Agentry.Spec.Codec
/-!
# Digests of specs

The digest of a spec is the SHA-256 of a canonical text. Canonical text forgets the order of
members, so the order of the fields of each schema is written beside the spec.
-/
namespace Agentry.AgentSpec

open Json (Value)

def digestValue (spec : AgentSpec) : Value :=
  .object [("spec", spec.toJson), ("input_order", .strings spec.inputs.names),
    ("output_order", .strings spec.outputs.names)]

def digestText (spec : AgentSpec) : String :=
  spec.digestValue.canonical

def digest (spec : AgentSpec) : String :=
  Sha256.hexDigest spec.digestText

end Agentry.AgentSpec
