import Agentry.Artifact.Literal
import Agentry.Proofs.Artifact.Lines
import Agentry.Proofs.Json.Printer
import Mathlib.Data.Bool.AllAny
/-!
# Documents of an artifact

The tools and the schemas of an artifact are laid out by rows. However far they are indented, their
texts are written by the grammar of documents and stand for the documents of the tools and of the
schemas. A row is a line of its own, so no line of a document begins with anything but a quote or a
delimiter.
-/
namespace Agentry.Literal

open Json (Blank NameText Value Written blank_nil blank_space nameText_quote written_quote)

/-! ## Rows -/

theorem quote_id : Json.quote "id" = "\"id\"".toList := by decide

theorem quote_displayName : Json.quote "displayName" = "\"displayName\"".toList := by decide

theorem quote_category : Json.quote "category" = "\"category\"".toList := by decide

theorem quote_type : Json.quote "type" = "\"type\"".toList := by decide

theorem quote_required : Json.quote "required" = "\"required\"".toList := by decide

theorem quote_description : Json.quote "description" = "\"description\"".toList := by decide

theorem written_toolRow (tool : Tool) :
    Written (.node (Json.Node.ofValue tool.toJson)) (toolRow tool) := by
  have hcategory := Written.lastMember blank_space (nameText_quote "category" blank_nil) blank_space
    (written_quote tool.category) blank_nil
  have hdisplay := Written.moreMembers blank_space (nameText_quote "displayName" blank_nil)
    blank_space (written_quote tool.displayName) blank_nil hcategory
  have hid := Written.moreMembers blank_nil (nameText_quote "id" blank_nil) blank_space
    (written_quote tool.id) blank_nil hdisplay
  apply (Written.object hid).congr rfl
  unfold toolRow
  simp [quoted, quote_id, quote_displayName, quote_category]

def fieldObject (field : FieldSpec) : List Char :=
  "\x7b\"type\": ".toList ++ quoted field.type.name ++ ", \"required\": ".toList ++
    Json.boolText field.required ++ ", \"description\": ".toList ++ quoted field.description ++
    ['\x7d']

theorem fieldRow_eq (entry : String × FieldSpec) :
    fieldRow entry = quoted entry.1 ++ [':'] ++ ([' '] ++ fieldObject entry.2) := by
  unfold fieldRow fieldObject
  simp

theorem written_fieldObject (field : FieldSpec) :
    Written (.node (Json.Node.ofValue field.toJson)) (fieldObject field) := by
  have hdescription := Written.lastMember blank_space (nameText_quote "description" blank_nil)
    blank_space (written_quote field.description) blank_nil
  have hrequired := Written.moreMembers blank_space (nameText_quote "required" blank_nil)
    blank_space (.bool field.required) blank_nil hdescription
  have htype := Written.moreMembers blank_nil (nameText_quote "type" blank_nil) blank_space
    (written_quote field.type.name) blank_nil hrequired
  apply (Written.object htype).congr rfl
  unfold fieldObject
  simp [quoted, quote_type, quote_required, quote_description]

/-! ## Blocks -/

/-- What follows the opening delimiter of a block. -/
def blockRows (closing : Char) (indent : List Char) : List (List Char) → List Char
  | [] => [closing]
  | [row] => '\n' :: block.indentRow indent row ++ '\n' :: indent ++ [closing]
  | row :: next :: rows =>
    '\n' :: block.indentRow indent row ++ ',' :: blockRows closing indent (next :: rows)

theorem block_eq (opening closing : Char) (indent : List Char) (rows : List (List Char)) :
    block opening closing indent rows = opening :: blockRows closing indent rows := by
  have hrest : ∀ row rows, blockRows closing indent (row :: rows) =
      '\n' :: block.indentRow indent row ++
        rows.flatMap (fun r => ',' :: '\n' :: block.indentRow indent r) ++
        '\n' :: indent ++ [closing] := by
    intro row rows
    induction rows generalizing row with
    | nil => simp [blockRows]
    | cons next rows ih => simp [blockRows, ih]
  cases rows with
  | nil => rfl
  | cons row rows =>
    rw [hrest]
    simp [block]

variable {indent : List Char}

theorem blank_indent (h : Blank indent) : Blank ('\n' :: (indent ++ "    ".toList)) := by
  intro c hc
  rcases List.mem_cons.mp hc with rfl | hc
  · rfl
  rcases List.mem_append.mp hc with hc | hc
  · exact h c hc
  · have hall : ∀ d ∈ "    ".toList, Json.isSpace d = true :=
      List.all_iff_forall_prop.mp (by decide)
    exact hall c hc

theorem blank_newline (h : Blank indent) : Blank ('\n' :: indent) := by
  intro c hc
  rcases List.mem_cons.mp hc with rfl | hc
  · rfl
  · exact h c hc

theorem written_toolRows (h : Blank indent) (tool : Tool) (tools : List Tool) :
    Written (.items (Json.Node.ofItems ((tool :: tools).map Tool.toJson)))
      (blockRows ']' indent ((tool :: tools).map toolRow)) := by
  induction tools generalizing tool with
  | nil =>
    have hlast := Written.lastItem (blank_indent h) (written_toolRow tool) (blank_newline h)
    apply hlast.congr rfl
    simp [blockRows, block.indentRow]
  | cons next tools ih =>
    have hmore := Written.moreItems (blank_indent h) (written_toolRow tool) blank_nil (ih next)
    apply hmore.congr rfl
    simp [blockRows, block.indentRow]

theorem written_toolsJson (h : Blank indent) (tools : List Tool) :
    Written (.node (Json.Node.ofValue (Tool.listToJson tools))) (toolsJson tools indent) := by
  rw [toolsJson, block_eq]
  cases tools with
  | nil => exact .emptyArray blank_nil
  | cons tool tools => exact .array (written_toolRows h tool tools)

theorem written_fieldRows (h : Blank indent) (entry : String × FieldSpec)
    (entries : List (String × FieldSpec)) :
    Written
      (.members (Json.Node.ofMembers
        ((entry :: entries).map fun (name, field) => (name, field.toJson))))
      (blockRows '\x7d' indent ((entry :: entries).map fieldRow)) := by
  induction entries generalizing entry with
  | nil =>
    have hlast := Written.lastMember (blank_indent h) (nameText_quote entry.1 blank_nil) blank_space
      (written_fieldObject entry.2) (blank_newline h)
    apply hlast.congr rfl
    simp [blockRows, block.indentRow, fieldRow_eq, quoted]
  | cons next entries ih =>
    have hmore := Written.moreMembers (blank_indent h) (nameText_quote entry.1 blank_nil)
      blank_space (written_fieldObject entry.2) blank_nil (ih next)
    apply hmore.congr rfl
    simp [blockRows, block.indentRow, fieldRow_eq, quoted]

theorem written_schemaJson (h : Blank indent) (schema : Schema) :
    Written (.node (Json.Node.ofValue schema.toJson)) (schemaJson schema indent) := by
  obtain ⟨entries⟩ := schema
  rw [schemaJson, block_eq]
  cases entries with
  | nil => exact .emptyObject blank_nil
  | cons entry entries => exact .object (written_fieldRows h entry entries)

/-! ## Characters of rows -/

def Printable (cs : List Char) : Prop := ∀ c ∈ cs, 0x20 ≤ c.toNat

theorem printable_of_all {cs : List Char} (h : cs.all (fun c => 0x20 ≤ c.toNat) = true) :
    Printable cs :=
  List.all_iff_forall_prop.mp h

theorem printable_append {a b : List Char} (ha : Printable a) (hb : Printable b) :
    Printable (a ++ b) := by
  intro c hc
  exact (List.mem_append.mp hc).elim (ha c) (hb c)

theorem printable_quoted (s : String) : Printable (quoted s) :=
  fun _ => Json.le_toNat_of_mem_quote

theorem Printable.newline_not_mem {cs : List Char} (h : Printable cs) : '\n' ∉ cs :=
  fun hc => absurd (h '\n' hc) (by decide)

theorem printable_toolRow (tool : Tool) : Printable (toolRow tool) := by
  have hopen : Printable "\x7b\"id\": ".toList := printable_of_all (by decide)
  have hdisplay : Printable ", \"displayName\": ".toList := printable_of_all (by decide)
  have hcategory : Printable ", \"category\": ".toList := printable_of_all (by decide)
  have hclose : Printable ['\x7d'] := printable_of_all (by decide)
  exact printable_append (printable_append (printable_append (printable_append (printable_append
    (printable_append hopen (printable_quoted _)) hdisplay) (printable_quoted _)) hcategory)
    (printable_quoted _)) hclose

theorem printable_boolText (b : Bool) : Printable (Json.boolText b) := by
  cases b <;> exact printable_of_all (by decide)

theorem printable_fieldRow (entry : String × FieldSpec) : Printable (fieldRow entry) := by
  have hopen : Printable ": \x7b\"type\": ".toList := printable_of_all (by decide)
  have hrequired : Printable ", \"required\": ".toList := printable_of_all (by decide)
  have hdescription : Printable ", \"description\": ".toList := printable_of_all (by decide)
  have hclose : Printable ['\x7d'] := printable_of_all (by decide)
  exact printable_append (printable_append (printable_append (printable_append (printable_append
    (printable_append (printable_append (printable_quoted _) hopen) (printable_quoted _)) hrequired)
    (printable_boolText _)) hdescription) (printable_quoted _)) hclose

/-- The rows of tools have no line ends, and each begins with a brace. -/
theorem toolRows_shape (tools : List Tool) :
    ∀ row ∈ tools.map toolRow, Printable row ∧ row.head? = some '\x7b' := by
  intro row hrow
  obtain ⟨tool, _, rfl⟩ := List.mem_map.mp hrow
  exact ⟨printable_toolRow tool, by unfold toolRow; simp⟩

/-- The rows of fields have no line ends, and each begins with a quote. -/
theorem fieldRows_shape (entries : List (String × FieldSpec)) :
    ∀ row ∈ entries.map fieldRow, Printable row ∧ row.head? = some '"' := by
  intro row hrow
  obtain ⟨entry, _, rfl⟩ := List.mem_map.mp hrow
  exact ⟨printable_fieldRow entry, by rw [fieldRow_eq]; simp [quoted, Json.quote]⟩

theorem Printable.return_not_mem {cs : List Char} (h : Printable cs) : '\r' ∉ cs :=
  fun hc => absurd (h '\r' hc) (by decide)

theorem return_not_mem_blockRows {closing : Char} (hindent : '\r' ∉ indent)
    (hclosing : closing ≠ '\r') {rows : List (List Char)} (hrows : ∀ row ∈ rows, Printable row) :
    '\r' ∉ blockRows closing indent rows := by
  have hrow : ∀ row, Printable row → '\r' ∉ '\n' :: block.indentRow indent row := by
    intro row hrow
    simpa [block.indentRow] using ⟨hindent, hrow.return_not_mem⟩
  induction rows with
  | nil => simpa [blockRows] using hclosing.symm
  | cons row rows ih =>
    have hfirst := hrow row (hrows row List.mem_cons_self)
    have hrest := ih fun r hr => hrows r (List.mem_cons_of_mem _ hr)
    cases rows with
    | nil =>
      rw [blockRows, List.append_assoc]
      simp only [List.mem_append, not_or]
      exact ⟨hfirst, by simpa using hindent, by simpa using hclosing.symm⟩
    | cons next rows =>
      rw [blockRows]
      simp only [List.mem_append, List.mem_cons, not_or] at hfirst ⊢
      exact ⟨hfirst, by decide, hrest⟩

theorem return_not_mem_toolsJson (hindent : '\r' ∉ indent) (tools : List Tool) :
    '\r' ∉ toolsJson tools indent := by
  rw [toolsJson, block_eq]
  simp only [List.mem_cons, not_or]
  exact ⟨by decide, return_not_mem_blockRows hindent (by decide) fun row hrow =>
    (toolRows_shape tools row hrow).1⟩

theorem return_not_mem_schemaJson (hindent : '\r' ∉ indent) (schema : Schema) :
    '\r' ∉ schemaJson schema indent := by
  rw [schemaJson, block_eq]
  simp only [List.mem_cons, not_or]
  exact ⟨by decide, return_not_mem_blockRows hindent (by decide) fun row hrow =>
    (fieldRows_shape schema.fields row hrow).1⟩

/-! ## Lines of blocks -/

open Label (isInlineBlank atStart lineHeads lineHeads_line lineHeads_newline)

/-- What stands before a row on its line. -/
theorem inline_row (hindent : ∀ c ∈ indent, isInlineBlank c = true) :
    ∀ c ∈ indent ++ [' ', ' ', ' ', ' '], isInlineBlank c = true := by
  intro c hc
  rcases List.mem_append.mp hc with hc | hc
  · exact hindent c hc
  · have hall : ∀ d ∈ [' ', ' ', ' ', ' '], isInlineBlank d = true :=
      List.all_iff_forall_prop.mp (by decide)
    exact hall c hc

theorem lineHeads_blockRows {closing head : Char} {rows : List (List Char)}
    (hindent : ∀ c ∈ indent, isInlineBlank c = true) (hclosing : atStart true closing = false)
    (hhead : atStart true head = false)
    (hrows : ∀ row ∈ rows, Printable row ∧ row.head? = some head) {x : Char}
    (hx : x ∈ lineHeads false (blockRows closing indent rows)) : x = head ∨ x = closing := by
  have hrow : ∀ row, Printable row → row.head? = some head → ∀ rest,
      lineHeads false ('\n' :: block.indentRow indent row ++ rest) =
        head :: lineHeads false rest := by
    intro row hprint hfirst rest
    obtain ⟨cs, rfl⟩ := List.head?_eq_some_iff.mp hfirst
    have hline := lineHeads_line (inline_row hindent) hhead
      (fun hmem => hprint.newline_not_mem (List.mem_cons_of_mem _ hmem)) rest
    simpa [block.indentRow, lineHeads_newline] using hline
  have hend : lineHeads false ('\n' :: indent ++ [closing]) = [closing] := by
    have hline := lineHeads_line hindent hclosing List.not_mem_nil []
    simpa [lineHeads_newline, lineHeads] using hline
  induction rows with
  | nil =>
    have hnone : lineHeads false [closing] = [] := by simp [lineHeads]
    rw [blockRows, hnone] at hx
    cases hx
  | cons row rows ih =>
    obtain ⟨hprint, hfirst⟩ := hrows row List.mem_cons_self
    cases rows with
    | nil =>
      rw [blockRows, List.append_assoc, hrow row hprint hfirst, hend] at hx
      simpa using hx
    | cons next rows =>
      have hcomma : ∀ rest, lineHeads false (',' :: rest) = lineHeads false rest := fun _ => rfl
      rw [blockRows, hrow row hprint hfirst, hcomma] at hx
      rcases List.mem_cons.mp hx with hx | hx
      · exact Or.inl hx
      · exact ih (fun r hr => hrows r (List.mem_cons_of_mem _ hr)) hx

/-- What may begin a line of a document, its first line apart. -/
def isRowHead (c : Char) : Bool := c = '"' || c = '\x7b' || c = '\x7d' || c = ']'

theorem lineHeads_toolsJson (hindent : ∀ c ∈ indent, isInlineBlank c = true) (tools : List Tool)
    {x : Char} (hx : x ∈ lineHeads false (toolsJson tools indent)) : isRowHead x = true := by
  rw [toolsJson, block_eq] at hx
  rcases lineHeads_blockRows hindent (by decide) (by decide) (toolRows_shape tools) hx with
    rfl | rfl <;> decide

theorem lineHeads_schemaJson (hindent : ∀ c ∈ indent, isInlineBlank c = true) (schema : Schema)
    {x : Char} (hx : x ∈ lineHeads false (schemaJson schema indent)) : isRowHead x = true := by
  rw [schemaJson, block_eq] at hx
  rcases lineHeads_blockRows hindent (by decide) (by decide) (fieldRows_shape schema.fields) hx
    with rfl | rfl <;> decide

end Agentry.Literal
