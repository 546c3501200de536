import Agentry.Proofs.Artifact.Rendering
import Agentry.Proofs.Spec.Members
/-!
# Layout of literals

A quoted literal ends where it was made to end, whatever follows it. The documents of tools and of
schemas may be indented in any way and still mean what their compact texts mean. They keep their
texts off the beginnings of lines: as long as the indentation has no line feed, every line of a
document but the first begins with a quote or a delimiter, and no label begins there.
-/
namespace Agentry

open Json (Blank Decoder Value Written blank_nil)

/-! ## Quoted literals -/

namespace Literal

open Label (Quotation)

/-- Whatever follows a quoted literal, it is the one beginning of the text that matches the pattern
of literals. It has no line feed, and as a document it is its string. -/
theorem quoted_selfDelimiting (s : String) (tail : List Char) :
    (∀ literal, Quotation (· != '\n') literal ∧ literal <+: quoted s ++ tail ↔
      literal = quoted s) ∧
    Label.quotedLiteral (· != '\n') (quoted s ++ tail) = some (quoted s, tail) ∧
    '\n' ∉ quoted s ∧ Json.decode Decoder.text (String.ofList (quoted s)) = .ok s := by
  have hallowed : ∀ c : Char, 0x20 ≤ c.toNat → (c != '\n') = true := fun _ => Label.inLine_of_le
  have hquotation : Quotation (· != '\n') (quoted s) := Label.quotation_quote hallowed s
  have hprefix : quoted s <+: quoted s ++ tail := List.prefix_append _ _
  have hdecode : Json.decode Decoder.text (String.ofList (quoted s ++ [])) = .ok s :=
    Json.decode_written (Json.written_quote s) blank_nil rfl
  rw [List.append_nil] at hdecode
  refine ⟨fun literal => ⟨fun h => ?_, fun h => ?_⟩, Label.quotedLiteral_quote hallowed s tail,
    Json.newline_not_mem_quote s, hdecode⟩
  · exact h.1.unique hquotation h.2 hprefix
  · rw [h]
    exact ⟨hquotation, hprefix⟩

end Literal

/-! ## Documents in two layouts -/

/-- A text of rows and the compact text of a value are one document, which every decoder answers
alike, and both decode to what the value was made from. -/
structure LaidOut {α : Type} (decoder : Decoder α) (a : α) (text : List Char) (v : Value) :
    Prop where
  alike : ∀ {β : Type} (other : Decoder β),
    Json.decode other (String.ofList text) = Json.decode other v.text
  decode_text : Json.decode decoder (String.ofList text) = .ok a
  decode_compact : Json.decode decoder v.text = .ok a

theorem laidOut_of_written {α : Type} {decoder : Decoder α} {a : α} {text : List Char} {v : Value}
    (htext : Written (.node (Json.Node.ofValue v)) text) (hv : v.Integral)
    (ha : decoder Json.depthLimit (Json.Node.ofValue v) = .ok a) : LaidOut decoder a text v := by
  have hdecode : ∀ {β : Type} (other : Decoder β) {t : List Char},
      Written (.node (Json.Node.ofValue v)) t →
        Json.decode other (String.ofList t) = other Json.depthLimit (Json.Node.ofValue v) := by
    intro β other t ht
    have hread : Json.decode other (String.ofList ([] ++ (t ++ []))) =
        other Json.depthLimit (Json.Node.ofValue v) :=
      Json.decode_of_written blank_nil ht blank_nil
    rwa [List.append_nil, List.nil_append] at hread
  have hcompact := Json.Value.written_compact v hv
  exact ⟨fun other => (hdecode other htext).trans (hdecode other hcompact).symm,
    (hdecode decoder htext).trans ha, (hdecode decoder hcompact).trans ha⟩

namespace Literal

open Label (isInlineBlank)
open Text (splitOn splitOn_append splitOn_of_not_mem)

variable {indent : List Char} {closing : Char} {row : List Char} {rows : List (List Char)}

/-! ## Lines of blocks -/

/-- The lines of a block, its first one apart. -/
def blockLines (closing : Char) (indent : List Char) : List (List Char) → List (List Char)
  | [] => []
  | [row] => [block.indentRow indent row, indent ++ [closing]]
  | row :: next :: rows =>
    (block.indentRow indent row ++ [',']) :: blockLines closing indent (next :: rows)

theorem newline_not_mem_indentRow (hindent : '\n' ∉ indent) (hrow : '\n' ∉ row) :
    '\n' ∉ block.indentRow indent row := by
  simpa [block.indentRow] using ⟨hindent, hrow⟩

theorem splitOn_blockRows (hindent : '\n' ∉ indent) (hclosing : closing ≠ '\n')
    (hrow : '\n' ∉ row) (hrows : ∀ r ∈ rows, '\n' ∉ r) {first : List Char}
    (hfirst : '\n' ∉ first) :
    splitOn '\n' (first ++ blockRows closing indent (row :: rows)) =
      first :: blockLines closing indent (row :: rows) := by
  -- The comma behind a row stands on the line of that row, so the line goes on up to the next row.
  induction rows generalizing row first with
  | nil =>
    have hend : '\n' ∉ indent ++ [closing] := by
      simpa using ⟨hindent, hclosing.symm⟩
    have hrest : splitOn '\n' (block.indentRow indent row ++ '\n' :: (indent ++ [closing])) =
        [block.indentRow indent row, indent ++ [closing]] := by
      rw [splitOn_append (newline_not_mem_indentRow hindent hrow), splitOn_of_not_mem hend]
    have htext : first ++ blockRows closing indent [row] =
        first ++ '\n' :: (block.indentRow indent row ++ '\n' :: (indent ++ [closing])) := by
      simp [blockRows]
    rw [htext, splitOn_append hfirst, hrest]
    rfl
  | cons next rows ih =>
    obtain ⟨hnext, hrows⟩ := List.forall_mem_cons.mp hrows
    have hline : '\n' ∉ block.indentRow indent row ++ [','] := by
      simpa using newline_not_mem_indentRow hindent hrow
    have htext : first ++ blockRows closing indent (row :: next :: rows) =
        first ++ '\n' :: (block.indentRow indent row ++ [','] ++
          blockRows closing indent (next :: rows)) := by
      simp [blockRows]
    rw [htext, splitOn_append hfirst, ih hnext hrows hline]
    rfl

/-- A block has its opening delimiter on the first line, and then one line for each row and one for
the closing delimiter. -/
theorem tail_splitOn_block {opening : Char} (hopening : opening ≠ '\n') (hclosing : closing ≠ '\n')
    (hindent : '\n' ∉ indent) (hrows : ∀ r ∈ rows, '\n' ∉ r) :
    (splitOn '\n' (block opening closing indent rows)).tail = blockLines closing indent rows := by
  rw [block_eq]
  cases rows with
  | nil =>
    have hline : '\n' ∉ opening :: blockRows closing indent [] := by
      simpa [blockRows] using ⟨hopening.symm, hclosing.symm⟩
    rw [splitOn_of_not_mem hline]
    rfl
  | cons row rows =>
    obtain ⟨hrow, hrows⟩ := List.forall_mem_cons.mp hrows
    have hfirst : '\n' ∉ [opening] := by
      simpa using hopening.symm
    have hsplit := splitOn_blockRows hindent hclosing hrow hrows hfirst
    rw [List.singleton_append] at hsplit
    rw [hsplit, List.tail_cons]

/-- A line that begins with a quote or a delimiter, blanks apart. -/
def IsRow (line : List Char) : Prop :=
  ∃ blanks c rest, line = blanks ++ c :: rest ∧ (∀ b ∈ blanks, isInlineBlank b = true) ∧
    isRowHead c = true

theorem IsRow.append {line : List Char} (h : IsRow line) (more : List Char) :
    IsRow (line ++ more) := by
  obtain ⟨blanks, c, rest, rfl, hblanks, hc⟩ := h
  exact ⟨blanks, c, rest ++ more, by simp, hblanks, hc⟩

theorem isRow_of_mem_blockLines {head : Char} (hindent : ∀ c ∈ indent, isInlineBlank c = true)
    (hclosing : isRowHead closing = true) (hhead : isRowHead head = true)
    (hrows : ∀ r ∈ rows, r.head? = some head) :
    ∀ line ∈ blockLines closing indent rows, IsRow line := by
  have hrow : ∀ r, r.head? = some head → IsRow (block.indentRow indent r) := by
    intro r hr
    obtain ⟨rest, rfl⟩ := List.head?_eq_some_iff.mp hr
    exact ⟨_, head, rest, by simp [block.indentRow], inline_row hindent, hhead⟩
  induction rows with
  | nil => exact fun line hline => absurd hline List.not_mem_nil
  | cons r rows ih =>
    obtain ⟨hr, hrows⟩ := List.forall_mem_cons.mp hrows
    cases rows with
    | nil => simpa [blockLines] using ⟨hrow r hr, indent, closing, [], rfl, hindent, hclosing⟩
    | cons next rows => exact List.forall_mem_cons.mpr ⟨(hrow r hr).append [','], ih hrows⟩

/-- No label begins where a row does. -/
theorem IsRow.afterAny_eq_none {line : List Char} (h : IsRow line) (part : SpecPart) :
    Label.afterAny part.labels line = none := by
  obtain ⟨blanks, c, rest, rfl, hblanks, hc⟩ := h
  cases hafter : Label.afterAny part.labels (blanks ++ c :: rest) with
  | none => rfl
  | some found =>
    obtain ⟨more, hmore⟩ := Label.skipInline_of_afterAny part.begin_initial hafter
    have hink : isInlineBlank c = false := by
      simp only [isRowHead, Bool.or_eq_true, decide_eq_true_eq] at hc
      rcases hc with ((rfl | rfl) | rfl) | rfl <;> decide
    rw [Label.skipInline_blanks hblanks, Label.skipInline_cons hink] at hmore
    obtain rfl : c = part.initial := (List.cons.inj hmore).1
    have hinitial : isRowHead part.initial = false := by
      cases part <;> decide
    rw [hc] at hinitial
    cases hinitial

/-- Every line but the first is a row, and no label begins there. -/
def RowByRow (text : List Char) : Prop :=
  ∀ line ∈ (splitOn '\n' text).tail, IsRow line ∧
    ∀ (part : SpecPart) (rest : List Char), Label.afterAny part.labels (line ++ rest) = none

theorem rowByRow_block {opening head : Char} (hopening : opening ≠ '\n')
    (hclosing : isRowHead closing = true) (hhead : isRowHead head = true)
    (hindent : ∀ c ∈ indent, isInlineBlank c = true)
    (hrows : ∀ r ∈ rows, Printable r ∧ r.head? = some head) :
    RowByRow (block opening closing indent rows) := by
  have hline : closing ≠ '\n' := by
    rintro rfl
    exact absurd hclosing (by decide)
  intro line hmem
  rw [tail_splitOn_block hopening hline (Label.newline_not_mem_inline hindent)
    fun r hr => (hrows r hr).1.newline_not_mem] at hmem
  have hrow := isRow_of_mem_blockLines hindent hclosing hhead (fun r hr => (hrows r hr).2) line hmem
  exact ⟨hrow, fun part rest => (hrow.append rest).afterAny_eq_none part⟩

theorem rowByRow_toolsJson (hindent : ∀ c ∈ indent, isInlineBlank c = true) (tools : List Tool) :
    RowByRow (toolsJson tools indent) :=
  rowByRow_block (by decide) (by decide) (by decide) hindent (toolRows_shape tools)

theorem rowByRow_schemaJson (hindent : ∀ c ∈ indent, isInlineBlank c = true) (schema : Schema) :
    RowByRow (schemaJson schema indent) :=
  rowByRow_block (by decide) (by decide) (by decide) hindent (fieldRows_shape schema.fields)

/-- However they are indented, the documents of a schema and of tools mean what their compact texts
mean, and an indentation without line feeds leaves the beginnings of their lines to rows. -/
theorem documents_laidOut {schema : Schema} (hschema : schema.WellFormed) (tools : List Tool)
    {indent : List Char} (hindent : ∀ c ∈ indent, c = ' ' ∨ c = '\t' ∨ c = '\n') :
    LaidOut Schema.decoder schema (schemaJson schema indent) schema.toJson ∧
      LaidOut (Decoder.list Tool.decoder) tools (toolsJson tools indent) (Tool.listToJson tools) ∧
      ('\n' ∉ indent →
        RowByRow (schemaJson schema indent) ∧ RowByRow (toolsJson tools indent)) := by
  have hblank : Blank indent := by
    intro c hc
    rcases hindent c hc with rfl | rfl | rfl <;> rfl
  refine ⟨laidOut_of_written (written_schemaJson hblank schema) schema.integral_toJson
    (Schema.decoder_toJson hschema 125), laidOut_of_written (written_toolsJson hblank tools)
    (Tool.integral_listToJson tools) (Tool.decoder_listToJson tools 125), fun hline => ?_⟩
  have hinline : ∀ c ∈ indent, isInlineBlank c = true := by
    intro c hc
    rcases hindent c hc with rfl | rfl | rfl
    · rfl
    · rfl
    · exact absurd hc hline
  exact ⟨rowByRow_schemaJson hinline schema, rowByRow_toolsJson hinline tools⟩

/-- Fields whose texts look like labels and like the end of their document. -/
def mimicFields : Schema :=
  ⟨[("name: \"x\"\n", ⟨.other "date", true, "\x7d\n  tools: []"⟩),
    ("\x7d", ⟨.number, false, "\\\""⟩)]⟩

/-- Tools whose texts look like labels and like the end of their document. -/
def mimicTools : List Tool := [⟨"]\nname: \"y\"", "\"", "version: \"2\""⟩, .ofId "b"]

theorem documents_laidOut_mimic :
    mimicFields.WellFormed ∧ (∀ c ∈ ['\t', '\n', ' '], c = ' ' ∨ c = '\t' ∨ c = '\n') ∧
      '\n' ∉ ['\t', ' '] ∧
      LaidOut Schema.decoder mimicFields (schemaJson mimicFields ['\t', '\n', ' '])
        mimicFields.toJson ∧
      LaidOut (Decoder.list Tool.decoder) mimicTools (toolsJson mimicTools ['\t', '\n', ' '])
        (Tool.listToJson mimicTools) ∧
      RowByRow (schemaJson mimicFields ['\t', ' ']) ∧
      RowByRow (toolsJson mimicTools ['\t', ' ']) := by
  have hfields : mimicFields.WellFormed := by decide
  have hbroken : ∀ c ∈ ['\t', '\n', ' '], c = ' ' ∨ c = '\t' ∨ c = '\n' := by simp
  have hinline : ∀ c ∈ ['\t', ' '], c = ' ' ∨ c = '\t' ∨ c = '\n' := by simp
  have hline : '\n' ∉ ['\t', ' '] := by decide
  obtain ⟨hschema, htools, -⟩ := documents_laidOut hfields mimicTools hbroken
  obtain ⟨-, -, hrows⟩ := documents_laidOut hfields mimicTools hinline
  exact ⟨hfields, hbroken, hline, hschema, htools, hrows hline⟩

end Literal
end Agentry
