import Agentry.Proofs.Artifact.TypeName
import Agentry.Proofs.Source.Literal
/-!
# The tokens of an artifact

The fixed text of an artifact is read once and for all. Between its pieces stand the digest, which
is inside a comment, the literals of the slug and of the parts, and the name of the behavior type.
-/
namespace Agentry.Source

open Artifact (Literals fields footer header headerEnd headerMiddle headerStart indent labelled
  sourceOf typeNameChars)
open Literal (quoted)

/-! ## The header and the fields -/

def word (s : String) : Token := .word s.toList

def middleTokens : List Token :=
  [word "use", word "agentc_core", .mark ':', .mark ':', word "prelude", .mark ':', .mark ':',
    .mark '*', .mark ';', word "pub", word "const", word "SLUG", .mark ':', .mark '&', word "str",
    .mark '=']

def endTokens : List Token :=
  [.mark ';', word "pub", word "fn", word "spec", .mark '(', .mark ')', .mark '-', .mark '>',
    word "AgentSpec", .mark '\x7b', word "AgentSpec", .mark ':', .mark ':', word "from_artifact",
    .mark '(', word "ArtifactLiterals", .mark '\x7b']

def fieldTokens (part : SpecPart) (text value : List Char) : List Token :=
  [word part.label, .mark ':', .literal text value, .mark ',']

variable {slug text value rest : List Char}

theorem reads_literal {d : Char} (h : ReadsAs text value) (hd : isWordChar d = false) :
    Reads (text ++ d :: rest) [.literal text value] (d :: rest) := by
  have hnext := h (d :: rest) (by simpa [startsWith] using hd)
  rw [← List.append_nil [Token.literal text value]]
  exact .next hnext .done

theorem reads_comments {digest : List Char} (hdigest : '\n' ∉ digest) (rest : List Char) :
    Reads (headerStart ++ (digest ++ '\n' :: rest)) [] ('\n' :: rest) := by
  obtain ⟨lines, hstart, hlines⟩ : ∃ lines, headerStart = lines ++ Artifact.digestMarker.toList ∧
      piece 4 lines = some [] := by
    refine ⟨"// @generated by agentc ".toList ++ Artifact.version.toList ++
      ("\n// Labelled literals below are read back by `agentc show`; " ++
        "keep each label on its own line.\n").toList, rfl, ?_⟩
    decide +kernel
  obtain ⟨marker, hmarker, hline⟩ : ∃ marker, Artifact.digestMarker.toList = '/' :: '/' :: marker ∧
      '\n' ∉ marker := ⟨" spec-digest: ".toList, rfl, by decide⟩
  have hcomment : '\n' ∉ marker ++ digest := by
    simp only [List.mem_append, not_or]
    exact ⟨hline, hdigest⟩
  have hsplit : headerStart ++ (digest ++ '\n' :: rest) =
      lines ++ ('/' :: '/' :: (marker ++ digest ++ '\n' :: rest)) := by
    rw [hstart, hmarker]
    simp
  rw [hsplit]
  exact (reads_piece hlines _).trans (.next (next_comment hcomment rest) .done)

theorem reads_header {digest : String} (hdigest : '\n' ∉ digest.toList) (h : ReadsAs text value)
    (rest : List Char) :
    Reads (header digest text ++ rest) (middleTokens ++ .literal text value :: endTokens) rest := by
  have hmiddle : piece 80 headerMiddle = some middleTokens := by decide +kernel
  have hend : piece 80 headerEnd = some endTokens := by decide +kernel
  obtain ⟨more, hmore⟩ : ∃ more, headerMiddle = '\n' :: more := ⟨_, rfl⟩
  obtain ⟨tail, htail⟩ : ∃ tail, headerEnd = ';' :: tail := ⟨_, rfl⟩
  have hcomments := reads_comments hdigest (more ++ (text ++ (headerEnd ++ rest)))
  have hliteral :
      Reads (text ++ (headerEnd ++ rest)) [.literal text value] (headerEnd ++ rest) := by
    rw [htail]
    exact reads_literal h (by decide)
  have hsplit : header digest text ++ rest = headerStart ++
      (digest.toList ++ '\n' :: (more ++ (text ++ (headerEnd ++ rest)))) := by
    rw [Artifact.header_eq, hmore]
    simp
  rw [← List.cons_append, ← hmore] at hcomments
  rw [hsplit, ← List.cons_append, ← hmore]
  exact hcomments.trans ((reads_piece hmiddle _).trans (hliteral.trans (reads_piece hend rest)))

theorem reads_labelled (part : SpecPart) (h : ReadsAs text value) (rest : List Char) :
    Reads (labelled part.label text ++ rest) (fieldTokens part text value) rest := by
  have hlabel : piece 40 (indent ++ part.label.toList ++ ": ".toList) =
      some [word part.label, .mark ':'] := by
    cases part <;> decide +kernel
  have hcomma : piece 2 [',', '\n'] = some [.mark ','] := by decide
  have hsplit : labelled part.label text ++ rest =
      indent ++ part.label.toList ++ ": ".toList ++ (text ++ ([',', '\n'] ++ rest)) := by
    simp [labelled]
  have hliteral : Reads (text ++ ([',', '\n'] ++ rest)) [.literal text value]
    ([',', '\n'] ++ rest) := reads_literal h (by decide)
  rw [hsplit]
  exact (reads_piece hlabel _).trans (hliteral.trans (reads_piece hcomma rest))

theorem reads_flatMap {α : Type} {text : α → List Char} {ts : α → List Token} {as : List α}
    (h : ∀ a ∈ as, ∀ rest, Reads (text a ++ rest) (ts a) rest) (rest : List Char) :
    Reads (as.flatMap text ++ rest) (as.flatMap ts) rest := by
  induction as with
  | nil => exact .done
  | cons a as ih =>
    simp only [List.flatMap_cons, List.append_assoc]
    exact (h a List.mem_cons_self _).trans (ih fun b hb => h b (List.mem_cons_of_mem a hb))

/-- The parts of a spec in the order in which an artifact has them. -/
def partsInOrder : List SpecPart :=
  [.name, .description, .version, .prompt, .tools, .inputs, .outputs]

def literalOf (l : Literals) : SpecPart → List Char
  | .prompt => l.prompt
  | .name => l.name
  | .description => l.description
  | .version => l.version
  | .tools => l.tools
  | .inputs => l.inputs
  | .outputs => l.outputs

theorem fields_eq (l : Literals) :
    fields l = partsInOrder.flatMap fun part => labelled part.label (literalOf l part) := by
  simp [fields, partsInOrder, literalOf, SpecPart.label]

def fieldsTokens (l : Literals) (value : SpecPart → List Char) : List Token :=
  partsInOrder.flatMap fun part => fieldTokens part (literalOf l part) (value part)

theorem reads_fields {l : Literals} {value : SpecPart → List Char}
    (h : ∀ part, ReadsAs (literalOf l part) (value part)) (rest : List Char) :
    Reads (fields l ++ rest) (fieldsTokens l value) rest := by
  rw [fields_eq]
  exact reads_flatMap (fun part _ => reads_labelled part (h part)) rest

/-! ## The footer -/

def footerStart : List Char := "    \x7d)\n\x7d\n\npub struct ".toList

def footerImpl : List Char := ";\n\n#[async_trait]\nimpl AgentBehavior for ".toList

def footerBody : List Char :=
  " \x7b\n    async fn execute(&self, ctx: &mut AgentContext, input: AgentInput)".toList ++
  " -> AgentOutcome \x7b\n".toList ++
  "        Ok(json!(\x7b\n            \"agent\": ctx.agent_name(),\n".toList ++
  "            \"input\": input.to_value(),\n        \x7d))\n    \x7d\n\x7d\n\n".toList ++
  "pub fn register(registry: &mut AgentRegistry) -> agentc_core::Result<()> \x7b\n".toList ++
  "    registry.register_as(SLUG, spec(), std::sync::Arc::new(".toList

def footerEnd : List Char := "))\n\x7d\n".toList

theorem footer_eq (name : List Char) :
    footer name = footerStart ++ (name ++ (footerImpl ++ (name ++ (footerBody ++
      (name ++ footerEnd))))) := by
  unfold footer footerStart footerImpl footerBody footerEnd
  simp only [List.append_assoc]

theorem literalsOf_append (ts us : List Token) :
    literalsOf (ts ++ us) = literalsOf ts ++ literalsOf us := by
  simp [literalsOf]

def memberLiterals : List (List Char × List Char) :=
  ["agent", "input"].map fun s => (quoted s, s.toList)

theorem ordinary_memberLiterals : ∀ p ∈ memberLiterals, Ordinary p.1 p.2 := by
  intro p hp
  obtain ⟨s, hs, rfl⟩ := List.mem_map.mp hp
  have hwritable : ∀ s ∈ ["agent", "input"],
      (s.toList.all fun c => Literal.isUnwritable c = false) = true := by decide
  exact ordinary_quoted (List.all_iff_forall_prop.mp (hwritable s hs))

theorem reads_name {c d : Char} {name : List Char} (hc : c.isAlpha = true)
    (hname : ∀ x ∈ c :: name, x.isAlphanum = true) (hd : (separator? d).isSome = true)
    (hhash : d ≠ '#') (rest : List Char) :
    Reads (c :: name ++ d :: rest) [.word (c :: name)] (d :: rest) := by
  have hstart : isWordStart c = true := by simp [isWordStart, hc]
  have hword : ∀ x ∈ c :: name, isWordChar x = true := fun x hx => by
    simp [isWordChar, hname x hx]
  rw [← List.append_nil [Token.word (c :: name)]]
  exact .next (next_word hstart hword hd hhash rest) .done

theorem piece_footerBody : ∃ ts, piece 400 footerBody = some ts ∧
    literalsOf ts = memberLiterals := by
  apply Option.map_eq_some_iff.mp
  decide +kernel

def startTokens : List Token := [.mark '\x7d', word "pub", word "struct"]

def implTokens : List Token :=
  [.mark ';', .mark '#', .mark '[', word "async_trait", .mark ']', word "impl",
    word "AgentBehavior", word "for"]

def closeTokens : List Token := [.mark ')', .mark ')', .mark '\x7d']

theorem reads_footer {c : Char} {name : List Char} (hc : c.isAlpha = true)
    (hname : ∀ x ∈ c :: name, x.isAlphanum = true) :
    ∃ ts, Reads (footer (c :: name)) (.mark '\x7d' :: .mark ')' :: ts) [] ∧
      literalsOf ts = memberLiterals := by
  have hstart : piece 40 footerStart = some (.mark '\x7d' :: .mark ')' :: startTokens) := by
    decide +kernel
  have himpl : piece 60 footerImpl = some implTokens := by decide +kernel
  have hend : piece 10 footerEnd = some closeTokens := by decide +kernel
  obtain ⟨body, hbody, hliterals⟩ := piece_footerBody
  have hsemicolon := reads_name hc hname (show (separator? ';').isSome = true by decide) (by decide)
  have hspace := reads_name hc hname (show (separator? ' ').isSome = true by decide) (by decide)
  have hparen := reads_name hc hname (show (separator? ')').isSome = true by decide) (by decide)
  have hlast : Reads footerEnd closeTokens [] := by
    have hreads := reads_piece hend []
    rwa [List.append_nil] at hreads
  refine ⟨startTokens ++ (.word (c :: name) :: (implTokens ++ (.word (c :: name) ::
    (body ++ (.word (c :: name) :: closeTokens))))), ?_, ?_⟩
  · rw [footer_eq]
    exact (reads_piece hstart _).trans ((hsemicolon _).trans ((reads_piece himpl _).trans
      ((hspace _).trans ((reads_piece hbody _).trans ((hparen _).trans hlast)))))
  · have hword : ∀ ts, literalsOf (.word (c :: name) :: ts) = literalsOf ts := fun _ => rfl
    have hnone : literalsOf startTokens = [] ∧ literalsOf implTokens = [] ∧
        literalsOf closeTokens = [] := ⟨rfl, rfl, rfl⟩
    simp only [literalsOf_append, hword, hliterals, hnone, List.nil_append, List.append_nil]

/-! ## The whole artifact -/

def artifactTokens (text slug : List Char) (l : Literals) (value : SpecPart → List Char)
    (closing : List Token) : List Token :=
  middleTokens ++ .literal text slug :: endTokens ++
    (fieldsTokens l value ++ .mark '\x7d' :: .mark ')' :: closing)

theorem literalsOf_artifactTokens (text slug : List Char) (l : Literals)
    (value : SpecPart → List Char) (closing : List Token) :
    literalsOf (artifactTokens text slug l value closing) =
      (text, slug) :: (partsInOrder.map (fun part => (literalOf l part, value part)) ++
        literalsOf closing) := rfl

theorem legal_artifactTokens {l : Literals} {value : SpecPart → List Char} {closing : List Token}
    (hslug : Ordinary text slug) (hvalue : ∀ part, Legal (literalOf l part) (value part))
    (hclosing : literalsOf closing = memberLiterals) :
    ∀ p ∈ literalsOf (artifactTokens text slug l value closing), Legal p.1 p.2 := by
  rw [literalsOf_artifactTokens, hclosing]
  simp only [List.forall_mem_cons, List.forall_mem_append, List.forall_mem_map]
  exact ⟨Or.inl hslug, fun part _ => hvalue part, fun p hp => Or.inl (ordinary_memberLiterals p hp)⟩

theorem reads_sourceOf {digest slug : String} {l : Literals} {value : SpecPart → List Char}
    (hdigest : '\n' ∉ digest.toList) (hslug : ReadsAs (quoted slug) slug.toList)
    (hvalue : ∀ part, ReadsAs (literalOf l part) (value part))
    (hchars : ∀ c ∈ slug.toList, isSlugLetter c = true ∨ c = '-')
    (hletter : ∃ c ∈ slug.toList, isSlugLetter c = true) :
    ∃ closing, Reads (sourceOf digest slug l)
        (artifactTokens (quoted slug) slug.toList l value closing) [] ∧
      literalsOf closing = memberLiterals := by
  obtain ⟨c, name, htype, hc, hname⟩ := Artifact.typeNameChars_shape hchars hletter
  obtain ⟨closing, hfooter, hclosing⟩ := reads_footer hc hname
  have hheader := reads_header hdigest hslug (fields l ++ footer (c :: name))
  have hfields := reads_fields hvalue (footer (c :: name))
  refine ⟨closing, ?_, hclosing⟩
  rw [sourceOf, List.append_assoc, htype]
  exact hheader.trans (hfields.trans hfooter)

end Agentry.Source
