import Agentry.Proofs.Artifact.RoundTrip
import Agentry.Proofs.Spec.Digest
/-!
# The digest in the header of an artifact

Whatever is read from an artifact is a well-formed spec. So a header with the digest of a spec tells
whether what is read is still that spec.
-/
namespace Agentry.Artifact

open AgentSpec (NoCollision)
open Json (Decoder)

theorem decoder_of_structured {α : Type} {part : SpecPart} {opening closing : Char}
    {decoder : Decoder α} {regions : Regions} {a : α}
    (h : structured part opening closing decoder regions = .ok a) :
    ∃ n, decoder Json.depthLimit n = .ok a := by
  unfold structured at h
  split at h
  · cases h
  split at h
  · cases h
  unfold decoded at h
  split at h
  · rename_i hrun
    cases h
    exact Decoder.exists_node_of_run hrun
  · cases h

theorem wellFormed_valueOr {part : SpecPart} {opening closing : Char} {regions : Regions} :
    (valueOr .empty (structured part opening closing Schema.decoder regions)).WellFormed := by
  cases h : structured part opening closing Schema.decoder regions with
  | error cause => exact Schema.wellFormed_empty
  | ok schema =>
    obtain ⟨n, hdecode⟩ := decoder_of_structured h
    exact Schema.wellFormed_of_decoder hdecode

/-- Every spec that is read from a text is well-formed. -/
theorem wellFormed_parse (text : String) : (parse text).spec.WellFormed :=
  ⟨wellFormed_valueOr, wellFormed_valueOr⟩

theorem digest_parse (text : String) :
    (parse text).digest = digestStatus text.toList (parse text).spec :=
  digest_parseChars text.toList

/-- A digest belongs to one spec, and an artifact that carries it is unedited as long as it reads as
that spec. -/
theorem digest_eq_iff_and_status {spec : AgentSpec} (hspec : spec.WellFormed) :
    (∀ other : AgentSpec, other.WellFormed → NoCollision spec.digestText other.digestText →
      (spec.digest = other.digest ↔ spec = other)) ∧
    ∀ (slug : String) (a : Artifact) (text : String), spec.renderAs slug = .ok a →
      stampedDigest text.toList = some a.digest.toList →
      NoCollision spec.digestText (parse text).spec.digestText →
      (parse text).digest = if (parse text).spec = spec then .matching else .edited := by
  have hiff : ∀ other : AgentSpec, other.WellFormed →
      NoCollision spec.digestText other.digestText →
        (spec.digest = other.digest ↔ spec = other) := by
    intro other hother hcollision
    constructor
    · exact AgentSpec.eq_of_digest_eq hspec hother hcollision
    · intro heq
      rw [heq]
  refine ⟨hiff, fun slug a text hrender hstamped hcollision => ?_⟩
  obtain ⟨-, _, -, ha⟩ := renderAs_ok hrender
  have hdigest : a.digest = spec.digest := by rw [ha]
  have hsame := hiff _ (wellFormed_parse text) hcollision
  rw [digest_parse, digestStatus, hstamped, hdigest]
  have hlists :
      spec.digest.toList = (parse text).spec.digest.toList ↔ (parse text).spec = spec := by
    rw [String.toList_inj, hsame, eq_comm]
  simp only [hlists]

/-- A spec whose input has some fields of one type. -/
def withInputs (names : List String) : AgentSpec :=
  ⟨"Pair", "b", "1", "", [], ⟨names.map fun name => (name, .mandatory .number)⟩, .empty⟩

/-- What is hashed of two fields in some order. -/
def orderedPair (first second : String) : Json.Value :=
  let field := Json.Value.object
    [("description", .string ""), ("required", .bool true), ("type", .string "number")]
  .object [("input_order", .strings [first, second]), ("output_order", .array []),
    ("spec", .object [("description", .string "b"),
      ("inputSchema", .object [("x", field), ("y", field)]), ("name", .string "Pair"),
      ("outputSchema", .object []), ("systemPrompt", .string ""), ("tools", .array []),
      ("version", .string "1")])]

theorem digestText_pair {first second : String}
    (h : (first, second) ∈ [("x", "y"), ("y", "x")]) :
    (withInputs [first, second]).digestText = (orderedPair first second).text := by
  have hpair : first = "x" ∧ second = "y" ∨ first = "y" ∧ second = "x" := by simpa using h
  rcases hpair with ⟨rfl, rfl⟩ | ⟨rfl, rfl⟩
  all_goals
    simp [AgentSpec.digestText, Json.Value.canonical, AgentSpec.digestValue, AgentSpec.toJson,
      Tool.listToJson, Schema.toJson, FieldSpec.toJson, FieldType.toJson, FieldType.name,
      FieldSpec.mandatory, Json.Value.strings, Schema.names, Json.Value.sorted,
      Json.Value.sortedMembers, Json.Value.sortedItems, withInputs, Schema.empty, List.mergeSort,
      List.MergeSort.Internal.splitInTwo, Json.Value.nameLe, orderedPair]

theorem digest_eq_iff_and_status_pair :
    (withInputs ["x", "y"]).digest ≠ (withInputs ["y", "x"]).digest ∧
      ∃ a, (withInputs ["x", "y"]).renderAs "pair" = .ok a ∧
        (parse a.source).digest = .matching := by
  have hspec : (withInputs ["x", "y"]).WellFormed := by decide
  have hother : (withInputs ["y", "x"]).WellFormed := by decide
  have hcollision : NoCollision (withInputs ["x", "y"]).digestText
      (withInputs ["y", "x"]).digestText := by
    rw [digestText_pair (by decide), digestText_pair (by decide), NoCollision, Json.Value.text,
      Json.Value.text, Sha256.hexDigest_ofList, Sha256.hexDigest_ofList, String.ofList_inj]
    intro hsame
    exact absurd hsame (by decide +kernel)
  have hvalid : (withInputs ["x", "y"]).validate = .ok () := rfl
  have hliterals : (withInputs ["x", "y"]).literals.isOk = true := by decide +kernel
  obtain ⟨a, ha⟩ := exists_renderAs hvalid (show "pair" ≠ "" by decide) hliterals
  have hparse := parse_rendered hspec ha
  have hstamped : stampedDigest a.source.toList = some a.digest.toList := by
    obtain ⟨-, l, _, rfl⟩ := renderAs_ok ha
    rw [String.toList_ofList]
    exact stampedDigest_sourceOf _ l "pair"
  obtain ⟨hdigests, hstatus⟩ := digest_eq_iff_and_status hspec
  have hmatching := hstatus "pair" a a.source ha hstamped (by rw [hparse]; exact fun _ => rfl)
  rw [if_pos (by rw [hparse])] at hmatching
  exact ⟨fun h => absurd ((hdigests _ hother hcollision).mp h) (by decide), a, ha, hmatching⟩

end Agentry.Artifact
