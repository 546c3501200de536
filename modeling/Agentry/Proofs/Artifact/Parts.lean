import Agentry.Artifact.Parsed
/-!
# Parts and their issues

A text either has a fault in a part or it has not, and the issues of an artifact are its faults in
the order of the parts. So no part has two issues, and a part with one is left empty.
-/
namespace Agentry

namespace SpecPart

/-- All parts, in the order in which they are read. -/
def all : List SpecPart := [.prompt, .name, .description, .version, .tools, .inputs, .outputs]

theorem mem_all (part : SpecPart) : part ∈ all := by
  cases part <;> decide

/-- Two specs that have the same value in a part. -/
def SameIn (s t : AgentSpec) : SpecPart → Prop
  | .prompt => s.prompt = t.prompt
  | .name => s.name = t.name
  | .description => s.description = t.description
  | .version => s.version = t.version
  | .tools => s.tools = t.tools
  | .inputs => s.inputs = t.inputs
  | .outputs => s.outputs = t.outputs

instance (s t : AgentSpec) (part : SpecPart) : Decidable (part.SameIn s t) := by
  cases part <;> (unfold SameIn; infer_instance)

theorem eq_of_sameIn {s t : AgentSpec} (h : ∀ part : SpecPart, part.SameIn s t) : s = t := by
  obtain ⟨name, description, version, prompt, tools, inputs, outputs⟩ := s
  obtain rfl : name = t.name := h .name
  obtain rfl : description = t.description := h .description
  obtain rfl : version = t.version := h .version
  obtain rfl : prompt = t.prompt := h .prompt
  obtain rfl : tools = t.tools := h .tools
  obtain rfl : inputs = t.inputs := h .inputs
  obtain rfl : outputs = t.outputs := h .outputs
  rfl

end SpecPart

/-- A spec with nothing in any part. -/
def AgentSpec.blank : AgentSpec := ⟨"", "", "", "", [], .empty, .empty⟩

namespace Artifact

open Json (Decoder)

def causeOf {α : Type} : Reading α → Option IssueCause
  | .ok _ => none
  | .error cause => some cause

theorem issueOf_eq {α : Type} (part : SpecPart) (r : Reading α) :
    issueOf part r = ((causeOf r).map (PartIssue.mk part)).toList := by
  cases r <;> rfl

/-- Why a part of a text cannot be read, if it cannot. -/
def fault (cs : List Char) (part : SpecPart) : Option IssueCause :=
  let (prompt, regions) := findPrompt cs
  match part with
  | .prompt => causeOf prompt
  | .name => causeOf (scalar .name regions)
  | .description => causeOf (scalar .description regions)
  | .version => causeOf (scalar .version regions)
  | .tools => causeOf (structured .tools '[' ']' (Decoder.list Tool.decoder) regions)
  | .inputs => causeOf (structured .inputs '\x7b' '\x7d' Schema.decoder regions)
  | .outputs => causeOf (structured .outputs '\x7b' '\x7d' Schema.decoder regions)

theorem issues_parseChars (cs : List Char) : (parseChars cs).issues =
    SpecPart.all.flatMap fun part => ((fault cs part).map (PartIssue.mk part)).toList := by
  simp only [parseChars, issueOf_eq, SpecPart.all, List.flatMap_cons, List.flatMap_nil, fault,
    List.append_nil, List.append_assoc]

theorem digest_parseChars (cs : List Char) :
    (parseChars cs).digest = digestStatus cs (parseChars cs).spec := rfl

theorem mem_issues {cs : List Char} {issue : PartIssue} :
    issue ∈ (parseChars cs).issues ↔ fault cs issue.part = some issue.cause := by
  obtain ⟨part, cause⟩ := issue
  simp [issues_parseChars, SpecPart.mem_all]

theorem issues_parts_sublist (cs : List Char) :
    ((parseChars cs).issues.map (·.part)).Sublist SpecPart.all := by
  have hpart : ∀ part, (((fault cs part).map (PartIssue.mk part)).toList.map (·.part)).Sublist
      [part] := by
    intro part
    cases fault cs part with
    | none => exact List.nil_sublist _
    | some cause => exact List.Sublist.refl _
  rw [issues_parseChars, List.map_flatMap]
  generalize SpecPart.all = parts
  induction parts with
  | nil => exact List.Sublist.refl _
  | cons part parts ih => exact (hpart part).append ih

theorem blank_of_fault {cs : List Char} {part : SpecPart} (h : fault cs part ≠ none) :
    part.SameIn (parseChars cs).spec .blank := by
  have hvalue : ∀ {α : Type} (default : α) (r : Reading α), causeOf r ≠ none →
      valueOr default r = default := by
    rintro α default (cause | a) hcause
    · rfl
    · exact absurd rfl hcause
  cases part <;> exact hvalue _ _ h

end Artifact
end Agentry
