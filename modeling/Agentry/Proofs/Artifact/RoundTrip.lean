import Agentry.Proofs.Artifact.Rows
/-!
# Artifacts read back

Whatever text stands in the parts of a spec, the search for the prompt finds its own line, every
other label is found on its own line outside the prompt, and each literal ends where it was made to
end. So the artifact of a spec reads as that spec, with no issue and with its own digest.
-/
namespace Agentry.Artifact

theorem stampedDigest_sourceOf (spec : AgentSpec) (l : Literals) (slug : String) :
    stampedDigest (sourceOf spec.digest slug l) = some spec.digest.toList := by
  rw [sourceOf, List.append_assoc]
  exact stampedDigest_header (fun _ => Sha256.not_blank_of_mem_hexDigest) _ _

theorem stampedDigest_of_renderAs {spec : AgentSpec} {slug : String} {a : Artifact}
    (h : spec.renderAs slug = .ok a) : stampedDigest a.source.toList = some spec.digest.toList := by
  obtain ⟨-, l, -, rfl⟩ := renderAs_ok h
  rw [String.toList_ofList]
  exact stampedDigest_sourceOf spec l slug

theorem digestStatus_sourceOf (spec : AgentSpec) (l : Literals) (slug : String) :
    digestStatus (sourceOf spec.digest slug l) spec = .matching := by
  rw [digestStatus, stampedDigest_sourceOf]
  exact if_pos rfl

/-- The literals of a spec are read back from among the rest of an artifact. -/
theorem parseChars_sourceOf {spec : AgentSpec} (hspec : spec.WellFormed) {l : Literals}
    (hl : l.Of spec) (slug : String) :
    parseChars (sourceOf spec.digest slug l) = ⟨spec, [], .matching⟩ := by
  have hread := fun part => (hl.holds hspec part).read hl.tame hl.prompt
    (newline_not_mem_digest spec) slug
  have hsame : (parseChars (sourceOf spec.digest slug l)).spec = spec :=
    SpecPart.eq_of_sameIn fun part => (hread part).1
  have hissues : (parseChars (sourceOf spec.digest slug l)).issues = [] := by
    simp [issues_parseChars, fun part => (hread part).2]
  have hstatus : (parseChars (sourceOf spec.digest slug l)).digest = .matching := by
    rw [digest_parseChars, hsame, digestStatus_sourceOf]
  generalize parseChars (sourceOf spec.digest slug l) = parsed at hsame hissues hstatus ⊢
  obtain ⟨read, issues, status⟩ := parsed
  obtain ⟨rfl, rfl, rfl⟩ : read = spec ∧ issues = [] ∧ status = .matching :=
    ⟨hsame, hissues, hstatus⟩
  rfl

theorem parse_rendered {spec : AgentSpec} (hspec : spec.WellFormed) {slug : String} {a : Artifact}
    (h : spec.renderAs slug = .ok a) : parse a.source = ⟨spec, [], .matching⟩ := by
  obtain ⟨-, l, hl, ha⟩ := renderAs_ok h
  rw [ha, parse, String.toList_ofList]
  exact parseChars_sourceOf hspec hl slug

theorem parse_name_of_renderAs {spec : AgentSpec} {slug : String} {a : Artifact}
    (h : spec.renderAs slug = .ok a) : (parse a.source).spec.name = spec.name := by
  obtain ⟨-, l, hl, ha⟩ := renderAs_ok h
  have hname : l.Holds spec .name := hl.name
  rw [ha, parse, String.toList_ofList]
  exact (hname.read hl.tame hl.prompt (newline_not_mem_digest spec) slug).1

/-- The artifact of a spec reads as that spec, and the spec that was read has the same artifact. -/
theorem parse_source_of_renderAs {spec : AgentSpec} (hspec : spec.WellFormed) {slug : String}
    {a : Artifact} (h : spec.renderAs slug = .ok a) :
    parse a.source = ⟨spec, [], .matching⟩ ∧ (parse a.source).spec.renderAs slug = .ok a := by
  have hparse := parse_rendered hspec h
  refine ⟨hparse, ?_⟩
  rw [hparse]
  exact h

/-- A spec whose texts try to close their literals and to begin other ones. -/
def forger : AgentSpec :=
  ⟨"Forger \"\\", "name: \"x\",\n", "1", "\"##\n  tools: r#\"[]\"#,\n\tname: \"y\"\n\"#",
    [⟨"id\"", "]\n[", "\x7f"⟩],
    ⟨[("\x7d\n", ⟨.number, true, "\"\x7d"⟩), ("a", ⟨.other "b", false, ""⟩)]⟩,
    .empty⟩

theorem parse_source_of_renderAs_forger : ∃ a, forger.renderAs "forger" = .ok a ∧
    parse a.source = ⟨forger, [], .matching⟩ ∧
    (parse a.source).spec.renderAs "forger" = .ok a := by
  have hvalid : forger.validate = .ok () := rfl
  have hliterals : forger.literals.isOk = true := by decide +kernel
  obtain ⟨a, ha⟩ := exists_renderAs hvalid (show "forger" ≠ "" by decide) hliterals
  exact ⟨a, ha, parse_source_of_renderAs (by decide) ha⟩

end Agentry.Artifact
