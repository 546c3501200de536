import Agentry.Proofs.Artifact.RoundTrip
/-!
# Specs as they read back

An artifact spells its types out, so a type that merely has the name of a known one reads back as
the known one. A spec with its types so replaced has the document, the digest and the artifacts of
the spec itself, and it is what those artifacts read back to.
-/
namespace Agentry

def FieldSpec.canonical (field : FieldSpec) : FieldSpec :=
  { field with type := .ofName field.type.name }

theorem FieldSpec.isCanonical_canonical (field : FieldSpec) : field.canonical.type.IsCanonical :=
  FieldType.isCanonical_ofName field.type.name

theorem FieldSpec.name_canonical (field : FieldSpec) :
    field.canonical.type.name = field.type.name :=
  FieldType.name_ofName field.type.name

namespace Schema

def canonical (schema : Schema) : Schema :=
  ⟨schema.fields.map fun (name, field) => (name, field.canonical)⟩

theorem names_canonical (schema : Schema) : schema.canonical.names = schema.names := by
  simp [canonical, names, Function.comp_def]

theorem wellFormed_canonical {schema : Schema} (h : schema.names.Nodup) :
    schema.canonical.WellFormed := by
  refine ⟨schema.names_canonical.symm ▸ h, fun entry hentry => ?_⟩
  obtain ⟨entry, -, rfl⟩ := List.mem_map.mp hentry
  exact entry.2.isCanonical_canonical

theorem toJson_canonical (schema : Schema) : schema.canonical.toJson = schema.toJson := by
  have hfield : ∀ field : FieldSpec, field.canonical.toJson = field.toJson := by
    intro field
    simp only [FieldSpec.toJson, FieldType.toJson, field.name_canonical]
    rfl
  simp [canonical, toJson, hfield]

theorem schemaJson_canonical (schema : Schema) (indent : List Char) :
    Literal.schemaJson schema.canonical indent = Literal.schemaJson schema indent := by
  have hrow : ∀ entry : String × FieldSpec,
      Literal.fieldRow (entry.1, entry.2.canonical) = Literal.fieldRow entry := by
    intro entry
    simp only [Literal.fieldRow, entry.2.name_canonical]
    rfl
  simp [canonical, Literal.schemaJson, Function.comp_def, hrow]

end Schema

namespace AgentSpec

def canonical (spec : AgentSpec) : AgentSpec :=
  { spec with inputs := spec.inputs.canonical, outputs := spec.outputs.canonical }

variable {spec : AgentSpec}

theorem wellFormed_canonical (hinputs : spec.inputs.names.Nodup)
    (houtputs : spec.outputs.names.Nodup) : spec.canonical.WellFormed :=
  ⟨Schema.wellFormed_canonical hinputs, Schema.wellFormed_canonical houtputs⟩

theorem digest_canonical (spec : AgentSpec) : spec.canonical.digest = spec.digest := by
  have hvalue : spec.canonical.digestValue = spec.digestValue := by
    simp only [digestValue, toJson, canonical, Schema.toJson_canonical, Schema.names_canonical]
  rw [digest, digestText, hvalue]
  rfl

theorem literals_canonical (spec : AgentSpec) : spec.canonical.literals = spec.literals := by
  simp only [literals, canonical, Schema.schemaJson_canonical]

theorem renderAs_canonical (spec : AgentSpec) (slug : String) :
    spec.canonical.renderAs slug = spec.renderAs slug := by
  have hvalidate : spec.canonical.validate = spec.validate := rfl
  simp only [renderAs, hvalidate, literals_canonical, digest_canonical]

theorem parse_canonical (hinputs : spec.inputs.names.Nodup) (houtputs : spec.outputs.names.Nodup)
    {slug : String} {a : Artifact} (h : spec.renderAs slug = .ok a) :
    Artifact.parse a.source = ⟨spec.canonical, [], .matching⟩ := by
  rw [← renderAs_canonical] at h
  exact Artifact.parse_rendered (wellFormed_canonical hinputs houtputs) h

end AgentSpec
end Agentry
