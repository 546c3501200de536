import Agentry.Proofs.Artifact.RoundTrip
/-!
# One broken literal

Somebody edits an artifact and leaves one of its literals broken: with a quote or a bracket that
nothing closes, with the opening of another literal, with what looks like a label. As long as it
stays on the row of its own label, no search and no scan for another part comes across it. So all
the other parts are read as they were written, and only the broken one can have an issue.
-/
namespace Agentry.Artifact

open Label (lineHeads)
open Literal (isRowHead)

namespace Literals

/-- The literals of which one is another text. -/
def replace (l : Literals) (text : List Char) : SpecPart → Literals
  | .prompt => { l with prompt := text }
  | .name => { l with name := text }
  | .description => { l with description := text }
  | .version => { l with version := text }
  | .tools => { l with tools := text }
  | .inputs => { l with inputs := text }
  | .outputs => { l with outputs := text }

variable {l : Literals} {text : List Char} {part other : SpecPart}

theorem get_replace (l : Literals) (text : List Char) (part other : SpecPart) :
    (l.replace text part).get other = if other = part then text else l.get other := by
  cases part <;> cases other <;> rfl

theorem Tame.replace (hl : l.Tame) (htext : '\n' ∉ text) (part : SpecPart) :
    (l.replace text part).Tame := by
  intro other hother
  rw [get_replace]
  split
  · rw [Label.lineHeads_false htext]
    exact fun y hy => (by cases hy)
  · exact hl other hother

theorem Holds.congr {m : Literals} {spec : AgentSpec} (h : l.Holds spec part)
    (hget : m.get part = l.get part) : m.Holds spec part := by
  cases part <;> simpa only [Holds, hget] using h

theorem Holds.replace {spec : AgentSpec} (h : l.Holds spec other) (hne : other ≠ part) :
    (l.replace text part).Holds spec other :=
  h.congr (by rw [get_replace, if_neg hne])

end Literals

/-- An artifact in which another text stands for the literal of one part reads as before in all
other parts, and no other part has an issue. -/
theorem parse_replace {spec : AgentSpec} (hspec : spec.WellFormed) {slug : String} {a : Artifact}
    (h : spec.renderAs slug = .ok a) {part : SpecPart} (hpart : part ≠ .prompt) {text : String}
    (htext : '\n' ∉ text.toList) :
    ∃ l, spec.literals = .ok l ∧ a.source = String.ofList (sourceOf spec.digest slug l) ∧
      let parsed := parse (String.ofList (sourceOf spec.digest slug (l.replace text.toList part)))
      (∀ other ≠ part, other.SameIn parsed.spec spec) ∧
        ∀ issue ∈ parsed.issues, issue.part = part := by
  obtain ⟨-, l, hl, rfl⟩ := literals_of_renderAs h
  have hof := literals_of_ok hl
  have hread : ∀ other ≠ part, other.SameIn
      (parseChars (sourceOf spec.digest slug (l.replace text.toList part))).spec spec ∧
        fault (sourceOf spec.digest slug (l.replace text.toList part)) other = none :=
    fun other hother => ((hof.holds hspec other).replace hother).read (hof.tame.replace htext part)
      ((hof.holds hspec .prompt).replace hpart.symm) (newline_not_mem_digest spec) slug
  refine ⟨l, hl, rfl, ?_⟩
  rw [parse, String.toList_ofList]
  refine ⟨fun other hother => (hread other hother).1, fun issue hissue => ?_⟩
  refine Decidable.byContradiction fun hother => ?_
  rw [mem_issues, (hread issue.part hother).2] at hissue
  cases hissue

/-- The tools of a forger, of which nothing is closed. -/
def torn : String := "r##\"[\x7b\"\\, \"##, system_prompt: r\"[\", name: \"x\", [["

theorem parse_replace_torn : ∃ a l, forger.renderAs "forger" = .ok a ∧
    forger.literals = .ok l ∧ a.source = String.ofList (sourceOf forger.digest "forger" l) ∧
    let parsed := parse (String.ofList (sourceOf forger.digest "forger"
      (l.replace torn.toList .tools)))
    (∀ other ≠ SpecPart.tools, other.SameIn parsed.spec forger) ∧
      ∀ issue ∈ parsed.issues, issue.part = .tools := by
  have hvalid : forger.validate = .ok () := rfl
  have hliterals : forger.literals.isOk = true := by decide +kernel
  obtain ⟨a, ha⟩ := exists_renderAs hvalid (show "forger" ≠ "" by decide) hliterals
  obtain ⟨l, hl⟩ := parse_replace (by decide) ha (show SpecPart.tools ≠ .prompt by decide)
    (show '\n' ∉ torn.toList by decide)
  exact ⟨a, l, ha, hl⟩

end Agentry.Artifact
