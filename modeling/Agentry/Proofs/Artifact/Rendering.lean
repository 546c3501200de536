import Agentry.Artifact.Template
import Agentry.Proofs.Artifact.Documents
import Agentry.Proofs.Artifact.Fence
import Agentry.Proofs.Artifact.Header
/-!
# What is rendered

A spec is rendered when each of its parts has a literal. Then each literal stands on the line of its
label, and a search for the label finds it there, past all lines that begin in another way.
-/
namespace Agentry

namespace Literal

/-- A raw literal of a text: its fence is short enough and closes it first at its end. -/
def Raw (cs literal : List Char) : Prop :=
  ∃ n, n ≤ maxFence ∧ Text.contains (closing n) cs = false ∧ literal = rawWith n cs

theorem raw_of_fenced {cs literal : List Char} (h : fenced cs = .ok literal) : Raw cs literal := by
  obtain ⟨hle, rfl⟩ := fenced_eq_ok_iff.mp h
  exact ⟨fenceLength cs, hle, contains_closing_fenceLength cs, rfl⟩

theorem checkWritable_eq_ok_iff {field value : String} :
    checkWritable field value = .ok () ↔ ∀ c ∈ value.toList, isUnwritable c = false := by
  simp only [checkWritable]
  split
  · rename_i h
    obtain ⟨c, hc, hbad⟩ := List.any_eq_true.mp h
    refine ⟨fun he => (by cases he), fun he => ?_⟩
    rw [he c hc] at hbad
    cases hbad
  · rename_i h
    exact ⟨fun _ => by simpa using h, fun _ => rfl⟩

end Literal

namespace Artifact

open Label (Begin Closed afterAny afterLabel find isInlineBlank lineHeads lineHeads_append
  lineHeads_inLine mem_lineHeads_append skipInline)
open Literal (Raw closing hashes mem_hashes quoted rawWith rawWith_append isRowHead)

/-- The literals of a spec whose parts can all be written. -/
structure Literals.Of (spec : AgentSpec) (l : Literals) : Prop where
  name : l.name = quoted spec.name
  description : l.description = quoted spec.description
  version : l.version = quoted spec.version
  prompt : Raw spec.prompt.toList l.prompt
  tools : Raw (Literal.toolsJson spec.tools indent) l.tools
  inputs : Raw (Literal.schemaJson spec.inputs indent) l.inputs
  outputs : Raw (Literal.schemaJson spec.outputs indent) l.outputs
  noReturn : '\r' ∉ spec.prompt.toList
  writable : ∀ s ∈ [spec.name, spec.description, spec.version],
    ∀ c ∈ s.toList, Literal.isUnwritable c = false

theorem literals_of_ok {spec : AgentSpec} {l : Literals} (h : spec.literals = .ok l) :
    l.Of spec := by
  simp only [AgentSpec.literals, bind, Except.bind, pure, Except.pure] at h
  split at h
  · cases h
  rename_i hname
  split at h
  · cases h
  rename_i hdescription
  split at h
  · cases h
  rename_i hversion
  split at h
  · cases h
  rename_i prompt hprompt
  split at h
  · cases h
  rename_i tools htools
  split at h
  · cases h
  rename_i inputs hinputs
  split at h
  · cases h
  rename_i outputs houtputs
  cases h
  obtain ⟨hreturn, hfenced⟩ := Literal.prompt_eq_ok_iff.mp hprompt
  have hwritable : ∀ s ∈ [spec.name, spec.description, spec.version],
      ∀ c ∈ s.toList, Literal.isUnwritable c = false := by
    simp only [List.forall_mem_cons]
    exact ⟨Literal.checkWritable_eq_ok_iff.mp hname,
      Literal.checkWritable_eq_ok_iff.mp hdescription,
      Literal.checkWritable_eq_ok_iff.mp hversion, fun _ h => (by cases h)⟩
  exact ⟨rfl, rfl, rfl, Literal.raw_of_fenced hfenced, Literal.raw_of_fenced htools,
    Literal.raw_of_fenced hinputs, Literal.raw_of_fenced houtputs, hreturn, hwritable⟩

theorem literals_of_renderAs {spec : AgentSpec} {slug : String} {a : Artifact}
    (h : spec.renderAs slug = .ok a) :
    slug ≠ "" ∧ ∃ l : Literals, spec.literals = .ok l ∧
      a = ⟨slug, fileNameOf slug, spec.digest,
        String.ofList (sourceOf spec.digest slug l)⟩ := by
  unfold AgentSpec.renderAs at h
  split at h
  · cases h
  split at h
  · cases h
  rename_i hslug
  split at h
  · cases h
  rename_i l hl
  cases h
  refine ⟨?_, l, hl, rfl⟩
  rintro rfl
  exact hslug rfl

theorem renderAs_ok {spec : AgentSpec} {slug : String} {a : Artifact}
    (h : spec.renderAs slug = .ok a) :
    slug ≠ "" ∧ ∃ l : Literals, l.Of spec ∧ a = ⟨slug, fileNameOf slug, spec.digest,
      String.ofList (sourceOf spec.digest slug l)⟩ := by
  obtain ⟨hslug, l, hl, ha⟩ := literals_of_renderAs h
  exact ⟨hslug, l, literals_of_ok hl, ha⟩

theorem names_of_renderAs {spec : AgentSpec} {slug : String} {a : Artifact}
    (h : spec.renderAs slug = .ok a) : a.slug = slug ∧ a.fileName = fileNameOf slug := by
  obtain ⟨-, l, -, rfl⟩ := renderAs_ok h
  exact ⟨rfl, rfl⟩

theorem digest_of_renderAs {spec : AgentSpec} {slug : String} {a : Artifact}
    (h : spec.renderAs slug = .ok a) : a.digest = spec.digest := by
  obtain ⟨-, l, -, rfl⟩ := renderAs_ok h
  rfl

theorem exists_renderAs {spec : AgentSpec} {slug : String} (hvalid : spec.validate = .ok ())
    (hslug : slug ≠ "") (hliterals : spec.literals.isOk = true) :
    ∃ a, spec.renderAs slug = .ok a := by
  have hempty : slug.isEmpty = false := by simpa using hslug
  cases hl : spec.literals with
  | error cause =>
    rw [hl] at hliterals
    cases hliterals
  | ok l => simp [AgentSpec.renderAs, hvalid, hempty, hl]

/-! ## Lines of labels -/

theorem blank_indent : ∀ c ∈ indent, isInlineBlank c = true :=
  List.all_iff_forall_prop.mp (by decide)

theorem closed_labelled (label : String) (literal : List Char) : Closed (labelled label literal) :=
  Or.inr ⟨indent ++ label.toList ++ ": ".toList ++ literal ++ [','], by simp [labelled]⟩

theorem labelled_append (label : String) (literal rest : List Char) :
    labelled label literal ++ rest =
      indent ++ (label.toList ++ ([] ++ ':' :: ([' '] ++ (literal ++ ',' :: '\n' :: rest)))) := by
  simp [labelled]

/-- A search finds the literal of a label past lines that begin in another way. -/
theorem find_labelled {α : Type} {label : String} {more : List String} {x : Char}
    (hx : Begin (label :: more) x) {tail : List Char → Option α} {front : List Char}
    (hfront : Label.Free x front) {literal rest : List Char} {a : α}
    (hskip : ∀ after, skipInline (literal ++ after) = literal ++ after)
    (htail : tail (literal ++ ',' :: '\n' :: rest) = some a) :
    find (label :: more) tail (front ++ (labelled label literal ++ rest)) = some a := by
  have hlabel : label.toList.head? = some x := hx.2.2 label List.mem_cons_self
  have hafter : afterLabel label (labelled label literal ++ rest) =
      some (literal ++ ',' :: '\n' :: rest) := by
    rw [labelled_append, Label.afterLabel_append blank_indent _ _ (by simp)
      (List.all_iff_forall_prop.mp (by decide)), hskip]
    · intro c hc
      obtain rfl : x = c := by simpa [hlabel] using hc
      exact hx.2.1
    · intro hnil
      rw [hnil] at hlabel
      cases hlabel
  have hany : afterAny (label :: more) (labelled label literal ++ rest) =
      some (literal ++ ',' :: '\n' :: rest) := by
    rw [afterAny, List.findSome?_cons, hafter]
  rw [Label.find_skip hx hfront.1 hfront.2]
  exact Label.find_front hany htail

theorem lineHeads_quoted (s : String) : ∀ y ∈ lineHeads false (quoted s), isRowHead y = true := by
  have hnone : lineHeads false (quoted s) = [] :=
    Label.lineHeads_false (Json.newline_not_mem_quote s)
  rw [hnone]
  exact fun y hy => (by cases hy)

theorem newline_not_mem_hashes (n : Nat) : '\n' ∉ hashes n :=
  fun h => absurd (mem_hashes h) (by decide)

theorem lineHeads_raw {cs literal : List Char} (h : Raw cs literal)
    (hcs : ∀ y ∈ lineHeads false cs, isRowHead y = true) :
    ∀ y ∈ lineHeads false literal, isRowHead y = true := by
  obtain ⟨n, _, _, rfl⟩ := h
  have hopen : '\n' ∉ 'r' :: (hashes n ++ ['"']) := by
    simpa using newline_not_mem_hashes n
  have hsplit : rawWith n cs = 'r' :: (hashes n ++ ['"']) ++ (cs ++ closing n) := by
    simp [rawWith, closing]
  intro y hy
  rw [hsplit, lineHeads_inLine hopen] at hy
  rcases mem_lineHeads_append hy with hy | ⟨s, hy⟩
  · exact hcs y hy
  · have hquote : y ∈ lineHeads s (closing n) → y = '"' := by
      have hrest := Label.lineHeads_false (newline_not_mem_hashes n)
      cases s <;> simp [closing, lineHeads, Label.atStart, isInlineBlank, hrest]
    rw [hquote hy]
    rfl

/-! ## Initials of labels -/

end Artifact

/-- The character with which the labels of a part begin. -/
def SpecPart.initial : SpecPart → Char
  | .prompt => 's'
  | .name => 'n'
  | .description => 'd'
  | .version => 'v'
  | .tools => 't'
  | .inputs => 'i'
  | .outputs => 'o'

theorem SpecPart.begin_initial (part : SpecPart) : Label.Begin part.labels part.initial := by
  cases part <;> exact ⟨by decide, by decide, by decide⟩

theorem SpecPart.labels_eq (part : SpecPart) : ∃ more, part.labels = part.label :: more := by
  cases part <;> exact ⟨_, rfl⟩

theorem SpecPart.initial_injective {p q : SpecPart} (h : p.initial = q.initial) : p = q := by
  cases p <;> cases q <;> first | rfl | exact absurd h (by decide)

namespace Artifact

open Label (Free lineHeads lineHeads_append)
open Literal (isRowHead)

/-- A labelled line begins with its label, and its literal adds the heads of its own lines. So it is
free of the labels of other parts. -/
theorem free_labelled {p q : SpecPart} (hne : p ≠ q) {literal : List Char}
    (hliteral : ∀ y ∈ lineHeads false literal, isRowHead y = true) :
    Free p.initial (labelled q.label literal) := by
  refine ⟨closed_labelled q.label literal, fun hx => ?_⟩
  obtain ⟨cs, hlabel, hline⟩ : ∃ cs, q.label.toList = q.initial :: cs ∧ '\n' ∉ cs := by
    cases q <;> exact ⟨_, rfl, by decide⟩
  have hinitial : Label.atStart true q.initial = false := by
    cases q <;> decide
  have hpunctuation : isRowHead p.initial = false ∧ p.initial ≠ ',' := by
    cases p <;> decide
  have hsplit : labelled q.label literal =
      indent ++ q.initial :: (cs ++ [':', ' '] ++ (literal ++ [',', '\n'])) := by
    simp [labelled, hlabel]
  have hend : ∀ s y, y ∈ lineHeads s [',', '\n'] → y = ',' := by
    intro s y hy
    cases s with
    | true => simpa [lineHeads, Label.atStart, Label.isInlineBlank] using hy
    | false => simp [lineHeads, Label.atStart] at hy
  rw [hsplit, Label.lineHeads_line blank_indent hinitial (by simpa using hline),
    lineHeads_append] at hx
  rcases List.mem_cons.mp hx with hx | hx
  · exact hne (SpecPart.initial_injective hx)
  rcases List.mem_append.mp hx with hx | hx
  · rw [hliteral _ hx] at hpunctuation
    cases hpunctuation.1
  · exact hpunctuation.2 (hend _ _ hx)

theorem free_header {digest : String} {slug : List Char} (hdigest : '\n' ∉ digest.toList)
    (hslug : '\n' ∉ slug) (part : SpecPart) : Free part.initial (header digest slug) := by
  refine ⟨closed_header digest slug, ?_⟩
  rw [lineHeads_header hdigest hslug]
  cases part <;> decide

end Artifact
end Agentry
