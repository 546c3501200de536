import Agentry.Proofs.Artifact.Stamp
import Agentry.Proofs.Spec.Schema
/-!
# Where specs come from

A spec is read from the text of an artifact, decoded from a document, put together from the literals
of an artifact that runs, or built step by step with types that were decoded or typed in. All of
them are well-formed, so what was read from any text and rendered reads back as it was.
-/
namespace Agentry

open Json (Decoder)

namespace FieldType

/-- A type that was decoded, by itself or in a field, or typed in. -/
inductive Obtained : FieldType → Prop where
  | decoded {text : String} {type : FieldType} :
    Json.decode decoder text = .ok type → Obtained type
  | inField {text : String} {field : FieldSpec} :
    Json.decode FieldSpec.decoder text = .ok field → Obtained field.type
  | typedIn {text : String} {type : FieldType} : parse text = .ok type → Obtained type

theorem isCanonical_of_parse {text : String} {type : FieldType} (h : parse text = .ok type) :
    type.IsCanonical := by
  have hcanonical := isCanonical_ofName (Text.asciiLowercase (Text.trim text))
  rw [parse] at h
  generalize ofName (Text.asciiLowercase (Text.trim text)) = found at h hcanonical
  cases found with
  | other name => cases h
  | _ =>
    cases h
    exact hcanonical

theorem Obtained.isCanonical {type : FieldType} (h : Obtained type) : type.IsCanonical := by
  cases h with
  | decoded h =>
    obtain ⟨n, hdecode⟩ := Decoder.exists_node_of_run h
    exact isCanonical_of_decoder hdecode
  | inField h =>
    obtain ⟨n, hdecode⟩ := Decoder.exists_node_of_run h
    exact FieldSpec.isCanonical_of_decoder hdecode
  | typedIn h => exact isCanonical_of_parse h

end FieldType

namespace AgentSpec

inductive Produced : AgentSpec → Prop where
  | parsed (text : String) : Produced (Artifact.parse text).spec
  | decoded {text : String} {spec : AgentSpec} :
    Json.decode decoder text = .ok spec → Produced spec
  | compiled (texts : ArtifactTexts) : Produced (ofTexts texts).1
  | new (name description version : String) : Produced (new name description version)
  | withPrompt {spec : AgentSpec} (prompt : String) :
    Produced spec → Produced (spec.withPrompt prompt)
  | withTool {spec : AgentSpec} (tool : Tool) : Produced spec → Produced (spec.withTool tool)
  | withInput {spec : AgentSpec} (name : String) {field : FieldSpec} :
    field.type.Obtained → Produced spec → Produced (spec.withInput name field)
  | withOutput {spec : AgentSpec} (name : String) {field : FieldSpec} :
    field.type.Obtained → Produced spec → Produced (spec.withOutput name field)

theorem wellFormed_ofTexts (texts : ArtifactTexts) : (ofTexts texts).1.WellFormed := by
  have hschema : ∀ text : String,
      ((Json.decode Schema.decoder text).toOption.getD .empty).WellFormed := by
    intro text
    cases h : Json.decode Schema.decoder text with
    | error cause => exact Schema.wellFormed_empty
    | ok schema =>
      obtain ⟨n, hdecode⟩ := Decoder.exists_node_of_run h
      exact Schema.wellFormed_of_decoder hdecode
  exact ⟨hschema texts.inputs, hschema texts.outputs⟩

theorem Produced.wellFormed {spec : AgentSpec} (h : Produced spec) : spec.WellFormed := by
  induction h with
  | parsed text => exact Artifact.wellFormed_parse text
  | decoded h =>
    obtain ⟨n, hdecode⟩ := Decoder.exists_node_of_run h
    exact wellFormed_of_decoder hdecode
  | compiled texts => exact wellFormed_ofTexts texts
  | new name description version => exact ⟨Schema.wellFormed_empty, Schema.wellFormed_empty⟩
  | withPrompt prompt _ ih => exact ih
  | withTool tool _ ih => exact ih
  | withInput name hfield _ ih =>
    exact ⟨Schema.wellFormed_insert ih.1 hfield.isCanonical, ih.2⟩
  | withOutput name hfield _ ih =>
    exact ⟨ih.1, Schema.wellFormed_insert ih.2 hfield.isCanonical⟩

/-- The names of the types that are known. -/
def typeNames : List String := ["string", "number", "boolean", "array", "object"]

/-- However a spec was produced, no schema has a name twice and no type spells out the name of a
known one. What is read from a text and can be rendered is read again from its artifact. -/
theorem produced_wellFormed_and_rereads :
    (∀ spec : AgentSpec, spec.Produced →
      spec.inputs.names.Nodup ∧ spec.outputs.names.Nodup ∧
        ∀ entry ∈ spec.inputs.fields ++ spec.outputs.fields, ∀ name ∈ typeNames,
          entry.2.type ≠ .other name) ∧
      ∀ (text : String) (a : Artifact), (Artifact.parseSpec text).render = .ok a →
        Artifact.parse a.source = ⟨Artifact.parseSpec text, [], .matching⟩ := by
  constructor
  · intro spec hproduced
    obtain ⟨hinputs, houtputs⟩ := hproduced.wellFormed
    refine ⟨hinputs.1, houtputs.1, fun entry hentry name hname htype => ?_⟩
    have hcanonical : entry.2.type.IsCanonical :=
      (List.mem_append.mp hentry).elim (hinputs.2 entry) (houtputs.2 entry)
    exact (FieldType.isCanonical_iff _).mp hcanonical name htype hname
  · intro text a hrender
    exact Artifact.parse_rendered (Artifact.wellFormed_parse text) hrender

/-- A text that somebody edited: one type is not known, and one field is there twice. -/
def editedText : String :=
  "  name: \"Edited Bot\"\ndescription: \"b\",\n\tversion: \"1\"\n" ++
    "input_schema: \x7b\"x\": \x7b\"type\": \"String\"\x7d\x7d\n" ++
    "outputSchema: \x7b\"y\": \x7b\"type\": \"array\"\x7d, " ++
    "\"\\u0079\": \x7b\"type\": \"array\"\x7d\x7d\n"

/-- What is read from it. -/
def editedBot : AgentSpec :=
  (new "Edited Bot" "b" "1").withInput "x" (.optional (.other "String"))

theorem produced_wellFormed_and_rereads_edited :
    Artifact.parse editedText = ⟨editedBot, [⟨.prompt, .labelNotFound⟩, ⟨.tools, .labelNotFound⟩,
        ⟨.outputs, .undecodable (.duplicateField "y")⟩], .missing⟩ ∧
      editedBot.inputs.names.Nodup ∧
      ∃ a, editedBot.render = .ok a ∧ Artifact.parse a.source = ⟨editedBot, [], .matching⟩ := by
  have hparse : Artifact.parse editedText = ⟨editedBot, [⟨.prompt, .labelNotFound⟩,
      ⟨.tools, .labelNotFound⟩, ⟨.outputs, .undecodable (.duplicateField "y")⟩], .missing⟩ := by
    decide +kernel
  have hspec : Artifact.parseSpec editedText = editedBot := by rw [Artifact.parseSpec, hparse]
  have hslug : slugify editedBot.name ≠ "" := by decide +kernel
  obtain ⟨a, ha⟩ := Artifact.exists_renderAs rfl hslug (show editedBot.literals.isOk = true by
    decide +kernel)
  obtain ⟨hproduced, hrereads⟩ := produced_wellFormed_and_rereads
  have hbot : editedBot.Produced := hspec ▸ .parsed editedText
  have hreread := hrereads editedText a
  rw [hspec] at hreread
  exact ⟨hparse, (hproduced editedBot hbot).1, a, ha, hreread ha⟩

end AgentSpec
end Agentry
