import Agentry.Proofs.Artifact.Parts
import Agentry.Proofs.Artifact.Slices
/-!
# Every part is accounted for

Whatever a text looks like, reading it ends, and each part of the spec is either left empty and
reported once, or decoded from a literal that stands behind its label in the text.
-/
namespace Agentry.Artifact

open Json (Decoder)
open Label (Closed Heads)
open Literal (closing rawWith)
open Sliced (Around Labelled PromptRead labelled_of_find)

/-- A label of a part begins a line, or what stands behind the literal of the prompt, and `rest`
follows it. -/
def Introduced (part : SpecPart) (cs rest : List Char) : Prop :=
  ∃ above line, cs = above ++ line ∧
    (Closed above ∨ above = (findPrompt cs).2.before ++ (findPrompt cs).2.literal) ∧
    ∃ label ∈ part.labels, Heads label line rest

/-- A text begins with a literal that decodes to a value. -/
def LiteralOf {α : Type} (decoder : Decoder α) (value : α) (rest : List Char) : Prop :=
  ∃ literal after, rest = literal ++ after ∧ decoder.run literal = .ok value

/-- A literal that begins on the first line of a text decodes to a value. -/
def DocumentOf {α : Type} (decoder : Decoder α) (value : α) (rest : List Char) : Prop :=
  ∃ between document, rest = between ++ document ∧ '\n' ∉ between ∧
    LiteralOf decoder value document

/-- A text begins with a raw literal, which the first fence after its opening closes. -/
def RawOf (value : String) (rest : List Char) : Prop :=
  ∃ n after, rest = rawWith n value.toList ++ after ∧
    Text.cut (closing n) (value.toList ++ (closing n ++ after)) = some (value.toList, after)

/-- The value of a part stands at the front of a text in the form that the part has. -/
def ReadAs (spec : AgentSpec) (rest : List Char) : SpecPart → Prop
  | .prompt => RawOf spec.prompt rest ∨ LiteralOf Decoder.text spec.prompt rest
  | .name => LiteralOf Decoder.text spec.name rest
  | .description => LiteralOf Decoder.text spec.description rest
  | .version => LiteralOf Decoder.text spec.version rest
  | .tools => DocumentOf (Decoder.list Tool.decoder) spec.tools rest
  | .inputs => DocumentOf Schema.decoder spec.inputs rest
  | .outputs => DocumentOf Schema.decoder spec.outputs rest

theorem run_of_decoded {α : Type} {decoder : Decoder α} {literal : List Char} {a : α}
    (h : decoded decoder literal = .ok a) : decoder.run literal = .ok a := by
  unfold decoded at h
  split at h
  · rename_i hrun
    cases h
    exact hrun
  · cases h

theorem eq_ok_of_causeOf {α : Type} {r : Reading α} (default : α) (h : causeOf r = none) :
    r = .ok (valueOr default r) := by
  cases r with
  | error cause => cases h
  | ok a => rfl

/-! ## Labels in the regions -/

variable {cs : List Char} {part : SpecPart}

theorem eq_regions (cs : List Char) : cs = (findPrompt cs).2.before ++
    ((findPrompt cs).2.literal ++ (findPrompt cs).2.after) := by
  obtain ⟨sliced, -, hread⟩ := Sliced.findPrompt_read cs
  exact hread.around.2.eq

theorem introduced_before {rest : List Char} (h : Labelled part (findPrompt cs).2.before rest) :
    Introduced part cs (rest ++ ((findPrompt cs).2.literal ++ (findPrompt cs).2.after)) := by
  obtain ⟨above, line, hregion, habove, label, hlabel, hheads⟩ := h
  refine ⟨above, _, ?_, .inl habove, label, hlabel, hheads.append _⟩
  rw [← List.append_assoc, ← hregion]
  exact eq_regions cs

theorem introduced_after {rest : List Char} (h : Labelled part (findPrompt cs).2.after rest) :
    Introduced part cs rest := by
  obtain ⟨above, line, hregion, habove, label, hlabel, hheads⟩ := h
  refine ⟨(findPrompt cs).2.before ++ (findPrompt cs).2.literal ++ above, line, ?_, ?_, label,
    hlabel, hheads⟩
  · rw [List.append_assoc, ← hregion, List.append_assoc]
    exact eq_regions cs
  -- Behind the literal a label may stand on what is left of its last line.
  · rcases habove with rfl | ⟨front, rfl⟩
    · exact .inr (List.append_nil _)
    · exact .inl (.inr ⟨_, (List.append_assoc _ front ['\n']).symm⟩)

/-! ## One part at a time -/

theorem prompt_introduced {prompt : String} (h : (findPrompt cs).1 = .ok prompt) :
    ∃ rest, Introduced .prompt cs rest ∧
      (RawOf prompt rest ∨ LiteralOf Decoder.text prompt rest) := by
  have hwhole : ∀ {rest}, Labelled .prompt cs rest → Introduced .prompt cs rest := by
    rintro rest ⟨above, line, hcs, habove, hlabel⟩
    exact ⟨above, line, hcs, .inl habove, hlabel⟩
  obtain ⟨sliced, -, hread⟩ := Sliced.findPrompt_read cs
  generalize findPrompt cs = read at h hread
  cases hread with
  | @raw front text after n hcs hlabel hcut =>
    cases h
    exact ⟨_, hwhole hlabel, .inl ⟨n, after, by simp, by simpa using hcut⟩⟩
  | @quoted front literal after hcs hlabel _ =>
    exact ⟨_, hwhole hlabel, .inr ⟨literal, after, rfl, run_of_decoded h⟩⟩
  | lost cause => cases h

theorem scalar_introduced {value : String} (h : scalar part (findPrompt cs).2 = .ok value) :
    ∃ rest, Introduced part cs rest ∧ LiteralOf Decoder.text value rest := by
  have hliteral : ∀ {region literal after : List Char},
      Label.find part.labels (Label.quotedLiteral (· != '\n')) region = some (literal, after) →
        decoded Decoder.text literal = .ok value →
        ∃ rest, Labelled part region rest ∧
          ∀ more, LiteralOf Decoder.text value (rest ++ more) := by
    intro region literal after hfind hdecoded
    obtain ⟨rest, hlabel, htail⟩ := labelled_of_find hfind
    obtain rfl := Label.eq_of_quotedLiteral htail
    exact ⟨_, hlabel, fun more => ⟨literal, after ++ more, by simp, run_of_decoded hdecoded⟩⟩
  unfold scalar at h
  dsimp only at h
  cases hbefore : Label.find part.labels (Label.quotedLiteral (· != '\n'))
      (findPrompt cs).2.before with
  | some found =>
    rw [hbefore] at h
    obtain ⟨rest, hlabel, hvalue⟩ := hliteral hbefore h
    exact ⟨_, introduced_before hlabel, hvalue _⟩
  | none =>
    rw [hbefore, Option.none_or] at h
    cases hafter : Label.find part.labels (Label.quotedLiteral (· != '\n'))
        (findPrompt cs).2.after with
    | some found =>
      rw [hafter] at h
      obtain ⟨rest, hlabel, hvalue⟩ := hliteral hafter h
      exact ⟨rest, introduced_after hlabel, List.append_nil rest ▸ hvalue []⟩
    | none =>
      rw [hafter] at h
      cases h

theorem structured_introduced {α : Type} {opening ending : Char} {decoder : Decoder α} {value : α}
    (h : structured part opening ending decoder (findPrompt cs).2 = .ok value) :
    ∃ rest, Introduced part cs rest ∧ DocumentOf decoder value rest := by
  have hdocument : ∀ {rest : List Char}, scanned opening ending decoder rest = .ok value →
      DocumentOf decoder value rest := by
    intro rest hscanned
    unfold scanned at hscanned
    split at hscanned
    · cases hscanned
    · rename_i s hspan
      obtain ⟨hrest, hline⟩ := Balanced.eq_of_span hspan
      exact ⟨s.before, _, hrest, hline, s.literal, s.after, rfl, run_of_decoded hscanned⟩
  rw [structured_eq, afterPart] at h
  cases hbefore : Label.find part.labels some (findPrompt cs).2.before with
  | some rest =>
    obtain ⟨_, hlabel, hrest⟩ := labelled_of_find hbefore
    cases hrest
    simp only [hbefore, List.append_assoc] at h
    exact ⟨_, introduced_before hlabel, hdocument h⟩
  | none =>
    cases hafter : Label.find part.labels some (findPrompt cs).2.after with
    | some rest =>
      obtain ⟨_, hlabel, hrest⟩ := labelled_of_find hafter
      cases hrest
      simp only [hbefore, hafter] at h
      exact ⟨rest, introduced_after hlabel, hdocument h⟩
    | none =>
      simp only [hbefore, hafter] at h
      cases h

/-- A part without a fault is decoded from what follows its label. -/
theorem readAs_of_fault (h : fault cs part = none) :
    ∃ rest, Introduced part cs rest ∧ ReadAs (parseChars cs).spec rest part := by
  cases part with
  | prompt => exact prompt_introduced (eq_ok_of_causeOf _ h)
  | name => exact scalar_introduced (eq_ok_of_causeOf _ h)
  | description => exact scalar_introduced (eq_ok_of_causeOf _ h)
  | version => exact scalar_introduced (eq_ok_of_causeOf _ h)
  | tools => exact structured_introduced (eq_ok_of_causeOf _ h)
  | inputs => exact structured_introduced (eq_ok_of_causeOf _ h)
  | outputs => exact structured_introduced (eq_ok_of_causeOf _ h)

/-- Reading takes no slice that is not there, and it says of each part once that it is lost and left
empty, or else has decoded it. -/
theorem parse_accounted (text : String) :
    Sliced.parse? text = some (parse text) ∧
      ((parse text).issues.map (·.part)).Sublist
        [.prompt, .name, .description, .version, .tools, .inputs, .outputs] ∧
      (∀ issue ∈ (parse text).issues, issue.part.SameIn (parse text).spec .blank) ∧
      ∀ part ∉ (parse text).issues.map (·.part), ∃ rest,
        Introduced part text.toList rest ∧ ReadAs (parse text).spec rest part := by
  refine ⟨Sliced.parse?_eq text, issues_parts_sublist text.toList, fun issue hissue => ?_,
    fun part hpart => ?_⟩
  · apply blank_of_fault
    rw [mem_issues.mp hissue]
    exact Option.some_ne_none _
  · apply readAs_of_fault
    cases hfault : fault text.toList part with
    | none => rfl
    | some cause =>
      have hissue : ⟨part, cause⟩ ∈ (parse text).issues := mem_issues.mpr hfault
      exact absurd (List.mem_map_of_mem hissue) hpart

/-- A text with a quoted name behind the prompt, and four parts that cannot be read. -/
def wreck : String :=
  "é\nsystemPrompt\t: r#\"name: \"x\" [\"# name:\"Ü\\u00e9\",\nversion: \"1\n" ++
  "tools: {} [ ]\n input_schema: ü \x7b\"\x7d\noutputSchema:"

theorem parse_accounted_wreck :
    Sliced.parse? wreck = some (parse wreck) ∧
      (parse wreck).issues.map (·.part) = [.description, .version, .inputs, .outputs] ∧
      (∀ issue ∈ (parse wreck).issues, issue.part.SameIn (parse wreck).spec .blank) ∧
      (parse wreck).spec.name = "Üé" ∧ (parse wreck).spec.prompt = "name: \"x\" [" ∧
      ∀ part ∈ [SpecPart.prompt, .name, .tools], ∃ rest,
        Introduced part wreck.toList rest ∧ ReadAs (parse wreck).spec rest part := by
  obtain ⟨hsliced, -, hblank, hread⟩ := parse_accounted wreck
  have hissues :
      (parse wreck).issues.map (·.part) = [.description, .version, .inputs, .outputs] := by
    decide +kernel
  refine ⟨hsliced, hissues, hblank, by decide +kernel, by decide +kernel, fun part hpart => ?_⟩
  apply hread part
  rw [hissues]
  revert part
  decide

end Agentry.Artifact
