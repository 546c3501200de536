import Agentry.Proofs.Artifact.Parts
import Agentry.Proofs.Artifact.Regions
import Agentry.Proofs.Artifact.Rendering
import Agentry.Proofs.Artifact.Scan
import Agentry.Proofs.Spec.Codec
/-!
# Rows of an artifact

An artifact is a header, a row for each part and a footer. A search for a part passes over the rows
of the others, whatever their literals say, as long as no line inside them begins like a label. So
each part is read from its own row alone, and what stands in the others does not matter to it.
-/
namespace Agentry.Artifact

open Agentry.Balanced (Delimiters)
open Json (Blank Decoder Written blank_nil written_quote)
open Label (Free lineHeads skipInline skipInline_cons)
open Literal (Raw closing hashes isRowHead mem_hashes quoted rawWith rawWith_append)

theorem skipInline_raw {cs literal : List Char} (h : Raw cs literal) (after : List Char) :
    skipInline (literal ++ after) = literal ++ after := by
  obtain ⟨n, _, _, rfl⟩ := h
  exact skipInline_rawWith n cs after

theorem skipInline_quoted (s : String) (after : List Char) :
    skipInline (quoted s ++ after) = quoted s ++ after := by
  rw [quoted, Json.quote_append]
  exact skipInline_cons (by decide) _

/-! ## One part at a time -/

theorem findPrompt_labelled {prompt : String} {literal front : List Char}
    (hraw : Raw prompt.toList literal) (hfront : Free SpecPart.prompt.initial front)
    (rest : List Char) :
    findPrompt (front ++ (labelled SpecPart.prompt.label literal ++ rest)) =
      (.ok prompt,
        ⟨front ++ (indent ++ "system_prompt: ".toList), literal, ',' :: '\n' :: rest⟩) := by
  have hskip := skipInline_raw hraw
  obtain ⟨n, _, hfence, rfl⟩ := hraw
  have hsplit : front ++ (labelled SpecPart.prompt.label (rawWith n prompt.toList) ++ rest) =
      front ++ (indent ++ "system_prompt: ".toList) ++
        (rawWith n prompt.toList ++ ',' :: '\n' :: rest) := by
    simp [labelled, SpecPart.label]
  have hfind : Label.find SpecPart.prompt.labels promptOpening
      (front ++ (labelled SpecPart.prompt.label (rawWith n prompt.toList) ++ rest)) =
        some (rawWith n prompt.toList ++ ',' :: '\n' :: rest, hashes n,
          prompt.toList ++ (closing n ++ ',' :: '\n' :: rest)) :=
    find_labelled SpecPart.prompt.begin_initial hfront hskip (promptOpening_rawWith n _ _)
  rw [hsplit] at hfind ⊢
  apply findPrompt_of_find hfence
  rw [hfind, promptOpening_rawWith]

theorem scalar_labelled {part : SpecPart} {front : List Char} (hfront : Free part.initial front)
    {regions : Regions} {value : String} {rest : List Char}
    (h : regions.before = front ++ (labelled part.label (quoted value) ++ rest)) :
    scalar part regions = .ok value := by
  obtain ⟨more, hlabels⟩ := part.labels_eq
  have hfind : Label.find part.labels (Label.quotedLiteral (· != '\n')) regions.before =
      some (quoted value, ',' :: '\n' :: rest) := by
    rw [h, hlabels]
    exact find_labelled (hlabels ▸ part.begin_initial) hfront (skipInline_quoted value)
      (Label.quotedLiteral_quote (fun _ => Label.inLine_of_le) value _)
  unfold scalar
  simp only [hfind, Option.some_or]
  exact decoded_written (written_quote value) rfl

theorem structured_labelled {α : Type} {part : SpecPart} {opening ending : Char}
    (hdelimiters : Delimiters opening ending) {decoder : Decoder α} {n : Json.Node}
    {t : List Char} {a : α}
    (ht : Written (.node n) (opening :: t)) (ha : decoder Json.depthLimit n = .ok a)
    {literal : List Char} (hraw : Raw (opening :: t) literal) {regions : Regions}
    (hbefore : part.initial ∉ lineHeads true regions.before) {front rest : List Char}
    (hfront : Free part.initial front)
    (hafter : regions.after = front ++ (labelled part.label literal ++ rest)) :
    structured part opening ending decoder regions = .ok a := by
  obtain ⟨more, hlabels⟩ := part.labels_eq
  obtain ⟨k, _, _, hliteral⟩ := id hraw
  have hnone : Label.find part.labels some regions.before = none :=
    Label.find_eq_none part.begin_initial hbefore
  have hfind : Label.find part.labels some regions.after =
      some (literal ++ ',' :: '\n' :: rest) := by
    rw [hafter, hlabels]
    exact find_labelled (hlabels ▸ part.begin_initial) hfront (skipInline_raw hraw) rfl
  have hmid : ∀ c ∈ 'r' :: (hashes k ++ ['"']), c ≠ '\n' ∧ c ≠ opening := by
    intro c hc
    have hcases : c = 'r' ∨ c ∈ hashes k ∨ c = '"' := by simpa using hc
    replace hcases := hcases.imp_right (Or.imp_left mem_hashes)
    cases hdelimiters <;> rcases hcases with rfl | rfl | rfl <;> decide
  have hspan : Balanced.span opening ending (literal ++ ',' :: '\n' :: rest) =
      .ok ⟨'r' :: (hashes k ++ ['"']), opening :: t, closing k ++ ',' :: '\n' :: rest⟩ := by
    have hwritten := Balanced.span_written hdelimiters ht (fun h => (hmid _ h).1 rfl)
      (fun h => (hmid _ h).2 rfl) (closing k ++ ',' :: '\n' :: rest)
    rw [← hwritten, hliteral, rawWith_append]
    simp
  simp only [structured_eq, afterPart, hnone, hfind, scanned, hspan]
  exact decoded_written ht ha

theorem blank_indentation : Blank indent := by
  intro c hc
  rw [(List.mem_replicate.mp hc).2]
  rfl

theorem free_comma (part : SpecPart) : Free part.initial [',', '\n'] := by
  refine ⟨Or.inr ⟨[','], rfl⟩, ?_⟩
  cases part <;> decide

theorem free_promptLabel {part : SpecPart} (hne : part ≠ .prompt) {front : List Char}
    (hfront : Free part.initial front) :
    part.initial ∉ lineHeads true (front ++ (indent ++ "system_prompt: ".toList)) := by
  rw [Label.lineHeads_append, Label.foldl_atStart_closed hfront.1, List.mem_append]
  rintro (h | h)
  · exact hfront.2 h
  · cases part <;> first | exact hne rfl | exact absurd h (by decide)

/-! ## Rows -/

/-- The parts on the rows above the prompt. -/
def scalarParts : List SpecPart := [.name, .description, .version]

/-- The parts on the rows below the prompt. -/
def documentParts : List SpecPart := [.tools, .inputs, .outputs]

namespace Literals

def get (l : Literals) : SpecPart → List Char
  | .prompt => l.prompt
  | .name => l.name
  | .description => l.description
  | .version => l.version
  | .tools => l.tools
  | .inputs => l.inputs
  | .outputs => l.outputs

/-- No line inside a literal begins like a label. The prompt, which may say anything, is apart. -/
def Tame (l : Literals) : Prop :=
  ∀ part ≠ SpecPart.prompt, ∀ y ∈ lineHeads false (l.get part), isRowHead y = true

def rows (l : Literals) (parts : List SpecPart) : List Char :=
  parts.flatMap fun part => labelled part.label (l.get part)

variable {l : Literals} {part : SpecPart} {parts : List SpecPart}

theorem free_rows (hl : l.Tame) (hprompt : .prompt ∉ parts) (hpart : part ∉ parts) :
    Free part.initial (l.rows parts) := by
  induction parts with
  | nil => exact ⟨.inl rfl, fun h => (by cases h)⟩
  | cons other parts ih =>
    obtain ⟨hother, hprompt⟩ := List.ne_and_not_mem_of_not_mem_cons hprompt
    obtain ⟨hne, hpart⟩ := List.ne_and_not_mem_of_not_mem_cons hpart
    exact (free_labelled hne (hl other hother.symm)).append (ih hprompt hpart)

/-- The row of a part, behind rows of others. -/
theorem exists_row (hl : l.Tame) (hprompt : .prompt ∉ parts) (hpart : part ∈ parts) :
    ∃ front rest, l.rows parts = front ++ (labelled part.label (l.get part) ++ rest) ∧
      Free part.initial front := by
  obtain ⟨above, below, rfl, habove⟩ := List.eq_append_cons_of_mem hpart
  refine ⟨l.rows above, l.rows below, by simp [rows], free_rows hl ?_ habove⟩
  exact fun h => hprompt (List.mem_append_left _ h)

/-- The artifact around the literal of its prompt. -/
def regions (l : Literals) (digest slug : String) : Regions :=
  ⟨header digest (quoted slug) ++ (l.rows scalarParts ++ (indent ++ "system_prompt: ".toList)),
    l.prompt, [',', '\n'] ++ (l.rows documentParts ++ footer (typeNameChars slug.toList))⟩

theorem sourceOf_rows (l : Literals) (digest slug : String) :
    sourceOf digest slug l = header digest (quoted slug) ++ l.rows scalarParts ++
      (labelled SpecPart.prompt.label l.prompt ++
        (l.rows documentParts ++ footer (typeNameChars slug.toList))) := by
  simp [sourceOf, fields, rows, scalarParts, documentParts, get, SpecPart.label]

variable {digest : String} (hdigest : '\n' ∉ digest.toList) (slug : String)

include hdigest

theorem findPrompt_regions (hl : l.Tame) {prompt : String} (h : Raw prompt.toList l.prompt) :
    findPrompt (sourceOf digest slug l) = (.ok prompt, l.regions digest slug) := by
  have hfree : Free SpecPart.prompt.initial (header digest (quoted slug) ++ l.rows scalarParts) :=
    (free_header hdigest (Json.newline_not_mem_quote slug) _).append
      (free_rows hl (by decide) (by decide))
  rw [sourceOf_rows, findPrompt_labelled h hfree]
  simp [regions]

theorem scalar_regions (hl : l.Tame) (hpart : part ∈ scalarParts) {value : String}
    (h : l.get part = quoted value) : scalar part (l.regions digest slug) = .ok value := by
  obtain ⟨front, rest, hrows, hfront⟩ := exists_row hl (by decide) hpart
  apply scalar_labelled
    ((free_header hdigest (Json.newline_not_mem_quote slug) part).append hfront)
  rw [regions, hrows, h]
  simp only [List.append_assoc]
  rfl

theorem structured_regions (hl : l.Tame) (hpart : part ∈ documentParts) {α : Type}
    {opening ending : Char} (hdelimiters : Delimiters opening ending) {decoder : Decoder α}
    {n : Json.Node} {t : List Char} {a : α} (ht : Written (.node n) (opening :: t))
    (ha : decoder Json.depthLimit n = .ok a) (h : Raw (opening :: t) (l.get part)) :
    structured part opening ending decoder (l.regions digest slug) = .ok a := by
  have hscalar : ∀ other ∈ documentParts, other ∉ scalarParts ∧ other ≠ .prompt := by decide
  obtain ⟨hscalar, hne⟩ := hscalar part hpart
  obtain ⟨front, rest, hrows, hfront⟩ := exists_row hl (by decide) hpart
  have habove : Free part.initial (header digest (quoted slug) ++ l.rows scalarParts) :=
    (free_header hdigest (Json.newline_not_mem_quote slug) part).append
      (free_rows hl (by decide) hscalar)
  have hbefore : part.initial ∉ lineHeads true (l.regions digest slug).before := by
    rw [regions, ← List.append_assoc]
    exact free_promptLabel hne habove
  apply structured_labelled hdelimiters ht ha h hbefore ((free_comma part).append hfront)
  rw [regions, hrows]
  simp only [List.append_assoc]
  rfl

theorem tools_regions (hl : l.Tame) {tools : List Tool}
    (h : Raw (Literal.toolsJson tools indent) l.tools) :
    structured .tools '[' ']' (Decoder.list Tool.decoder) (l.regions digest slug) = .ok tools := by
  have hwritten := Literal.written_toolsJson blank_indentation tools
  rw [Literal.toolsJson, Literal.block_eq] at hwritten h
  exact structured_regions hdigest slug hl (by decide) .brackets hwritten
    (Tool.decoder_listToJson tools 125) h

theorem schema_regions (hl : l.Tame) (hpart : part ∈ documentParts) {schema : Schema}
    (hschema : schema.WellFormed) (h : Raw (Literal.schemaJson schema indent) (l.get part)) :
    structured part '\x7b' '\x7d' Schema.decoder (l.regions digest slug) = .ok schema := by
  have hwritten := Literal.written_schemaJson blank_indentation schema
  rw [Literal.schemaJson, Literal.block_eq] at hwritten h
  exact structured_regions hdigest slug hl hpart .braces hwritten
    (Schema.decoder_toJson hschema 125) h

end Literals

/-! ## Literals of a spec -/

/-- A part has a literal that reads as the value that a spec has in it. -/
def Literals.Holds (l : Literals) (spec : AgentSpec) : SpecPart → Prop
  | .prompt => Raw spec.prompt.toList (l.get .prompt)
  | .name => l.get .name = quoted spec.name
  | .description => l.get .description = quoted spec.description
  | .version => l.get .version = quoted spec.version
  | .tools => Raw (Literal.toolsJson spec.tools indent) (l.get .tools)
  | .inputs => spec.inputs.WellFormed ∧
    Raw (Literal.schemaJson spec.inputs indent) (l.get .inputs)
  | .outputs => spec.outputs.WellFormed ∧
    Raw (Literal.schemaJson spec.outputs indent) (l.get .outputs)

/-- A part is read from its own row, whatever the other rows say. -/
theorem Literals.Holds.read {l : Literals} {spec : AgentSpec} {part : SpecPart}
    (h : l.Holds spec part) (hl : l.Tame) (hprompt : l.Holds spec .prompt) {digest : String}
    (hdigest : '\n' ∉ digest.toList) (slug : String) :
    part.SameIn (parseChars (sourceOf digest slug l)).spec spec ∧
      fault (sourceOf digest slug l) part = none := by
  have hregions := findPrompt_regions hdigest slug hl hprompt
  cases part with
  | prompt => simp [SpecPart.SameIn, parseChars, fault, hregions, valueOr, causeOf]
  | name =>
    have hname := scalar_regions hdigest slug hl (by decide) h
    simp [SpecPart.SameIn, parseChars, fault, hregions, hname, valueOr, causeOf]
  | description =>
    have hdescription := scalar_regions hdigest slug hl (by decide) h
    simp [SpecPart.SameIn, parseChars, fault, hregions, hdescription, valueOr, causeOf]
  | version =>
    have hversion := scalar_regions hdigest slug hl (by decide) h
    simp [SpecPart.SameIn, parseChars, fault, hregions, hversion, valueOr, causeOf]
  | tools =>
    have htools := tools_regions hdigest slug hl h
    simp [SpecPart.SameIn, parseChars, fault, hregions, htools, valueOr, causeOf]
  | inputs =>
    have hinputs := schema_regions hdigest slug hl (by decide) h.1 h.2
    simp [SpecPart.SameIn, parseChars, fault, hregions, hinputs, valueOr, causeOf]
  | outputs =>
    have houtputs := schema_regions hdigest slug hl (by decide) h.1 h.2
    simp [SpecPart.SameIn, parseChars, fault, hregions, houtputs, valueOr, causeOf]

theorem Literals.Of.tame {spec : AgentSpec} {l : Literals} (hl : l.Of spec) : l.Tame := by
  have hquoted : ∀ {literal : List Char} {s : String}, literal = quoted s →
      ∀ y ∈ lineHeads false literal, isRowHead y = true := by
    rintro _ s rfl
    exact lineHeads_quoted s
  intro part hpart
  cases part with
  | prompt => exact absurd rfl hpart
  | name => exact hquoted hl.name
  | description => exact hquoted hl.description
  | version => exact hquoted hl.version
  | tools => exact lineHeads_raw hl.tools fun _ => Literal.lineHeads_toolsJson blank_indent _
  | inputs => exact lineHeads_raw hl.inputs fun _ => Literal.lineHeads_schemaJson blank_indent _
  | outputs => exact lineHeads_raw hl.outputs fun _ => Literal.lineHeads_schemaJson blank_indent _

theorem Literals.Of.holds {spec : AgentSpec} {l : Literals} (hl : l.Of spec)
    (hspec : spec.WellFormed) (part : SpecPart) : l.Holds spec part := by
  cases part with
  | prompt => exact hl.prompt
  | name => exact hl.name
  | description => exact hl.description
  | version => exact hl.version
  | tools => exact hl.tools
  | inputs => exact ⟨hspec.1, hl.inputs⟩
  | outputs => exact ⟨hspec.2, hl.outputs⟩

theorem newline_not_mem_digest (spec : AgentSpec) : '\n' ∉ spec.digest.toList :=
  fun h => absurd (Sha256.not_blank_of_mem_hexDigest h) (by decide)

end Agentry.Artifact
