import Agentry.Proofs.Artifact.RoundTrip
import Agentry.Proofs.Slug
import Agentry.Proofs.Source.Template
/-!
# The program that an artifact is

A compiler does not look for labels. It reads all tokens of an artifact, binds the literal of `SLUG`
to that constant and the other literals to the fields of one record, by the names before them. The
spec that the program makes of this record when it runs is the spec that is read from the labels.
-/
namespace Agentry.Source

open Artifact (Literals indent)
open Literal (quoted)

/-! ## Constants and fields -/

/-- What follows the first place where some tokens stand in a row. -/
def afterFirst (wanted : List Token) : List Token → Option (List Token)
  | [] => none
  | t :: ts =>
    if wanted.isPrefixOf (t :: ts) then some ((t :: ts).drop wanted.length)
    else afterFirst wanted ts

def constantHead : List Token :=
  [word "const", word "SLUG", .mark ':', .mark '&', word "str", .mark '=']

def recordHead : List Token :=
  [word "from_artifact", .mark '(', word "ArtifactLiterals", .mark '\x7b']

/-- The fields of a record, up to its end. -/
def fieldsOf : List Token → Option (List (List Char × List Char))
  | .mark '\x7d' :: .mark ')' :: _ => some []
  | .word label :: .mark ':' :: .literal _ value :: .mark ',' :: ts =>
    (fieldsOf ts).map ((label, value) :: ·)
  | _ => none

structure Program where
  slug : String
  texts : ArtifactTexts

def slugOf (ts : List Token) : Option String :=
  match afterFirst constantHead ts with
  | some (.literal _ value :: .mark ';' :: _) => some (String.ofList value)
  | _ => none

/-- A record has every field once, in any order. -/
def textsOf (entries : List (List Char × List Char)) : Option ArtifactTexts := do
  let text (part : SpecPart) : Option String :=
    (entries.lookup part.label.toList).map String.ofList
  if entries.length ≠ 7 then none
  return ⟨← text .name, ← text .description, ← text .version, ← text .prompt, ← text .tools,
    ← text .inputs, ← text .outputs⟩

def programOf (ts : List Token) : Option Program := do
  let slug ← slugOf ts
  let texts ← textsOf (← fieldsOf (← afterFirst recordHead ts))
  return ⟨slug, texts⟩

def textsAt (value : SpecPart → List Char) : ArtifactTexts :=
  ⟨String.ofList (value .name), String.ofList (value .description), String.ofList (value .version),
    String.ofList (value .prompt), String.ofList (value .tools), String.ofList (value .inputs),
    String.ofList (value .outputs)⟩

theorem programOf_artifactTokens (text slug : List Char) (l : Literals)
    (value : SpecPart → List Char) (closing : List Token) :
    programOf (artifactTokens text slug l value closing) =
      some ⟨String.ofList slug, textsAt value⟩ := rfl

/-! ## The program of a spec -/

/-- What the literal of a part is made of. -/
def valueOf (spec : AgentSpec) : SpecPart → List Char
  | .prompt => spec.prompt.toList
  | .name => spec.name.toList
  | .description => spec.description.toList
  | .version => spec.version.toList
  | .tools => Literal.toolsJson spec.tools indent
  | .inputs => Literal.schemaJson spec.inputs indent
  | .outputs => Literal.schemaJson spec.outputs indent

/-- What the program has for the parts of a spec. -/
def textsOfSpec (spec : AgentSpec) : ArtifactTexts :=
  ⟨spec.name, spec.description, spec.version, spec.prompt,
    String.ofList (Literal.toolsJson spec.tools indent),
    String.ofList (Literal.schemaJson spec.inputs indent),
    String.ofList (Literal.schemaJson spec.outputs indent)⟩

theorem textsAt_valueOf (spec : AgentSpec) : textsAt (valueOf spec) = textsOfSpec spec := by
  simp [textsAt, valueOf, textsOfSpec]

/-- The running program decodes the documents to the parts that they were written for. -/
theorem ofTexts_textsOfSpec {spec : AgentSpec} (hspec : spec.WellFormed) :
    AgentSpec.ofTexts (textsOfSpec spec) = (spec, []) := by
  have htools := Json.Decoder.run_written
    (Literal.written_toolsJson Artifact.blank_indentation spec.tools)
    (Tool.decoder_listToJson spec.tools 125)
  have hinputs := Json.Decoder.run_written
    (Literal.written_schemaJson Artifact.blank_indentation spec.inputs)
    (Schema.decoder_toJson hspec.1 125)
  have houtputs := Json.Decoder.run_written
    (Literal.written_schemaJson Artifact.blank_indentation spec.outputs)
    (Schema.decoder_toJson hspec.2 125)
  simp [AgentSpec.ofTexts, textsOfSpec, Json.decode, htools, hinputs, houtputs, Except.toOption]

theorem legal_literalOf {spec : AgentSpec} {l : Literals} (hl : l.Of spec) (part : SpecPart) :
    Legal (literalOf l part) (valueOf spec part) := by
  have hindent : '\r' ∉ indent := by decide
  cases part with
  | prompt => exact Or.inr (raw_of_raw hl.prompt hl.noReturn)
  | name =>
    rw [literalOf, hl.name]
    exact Or.inl (ordinary_quoted (hl.writable _ (by simp)))
  | description =>
    rw [literalOf, hl.description]
    exact Or.inl (ordinary_quoted (hl.writable _ (by simp)))
  | version =>
    rw [literalOf, hl.version]
    exact Or.inl (ordinary_quoted (hl.writable _ (by simp)))
  | tools => exact Or.inr (raw_of_raw hl.tools (Literal.return_not_mem_toolsJson hindent _))
  | inputs => exact Or.inr (raw_of_raw hl.inputs (Literal.return_not_mem_schemaJson hindent _))
  | outputs => exact Or.inr (raw_of_raw hl.outputs (Literal.return_not_mem_schemaJson hindent _))

theorem ordinary_slug (name : String) :
    Ordinary (quoted (slugify name)) (slugify name).toList := by
  refine ordinary_quoted fun c hc => ?_
  rcases mem_slugify hc with hletter | rfl
  · simp only [isSlugLetter, Bool.or_eq_true, Bool.and_eq_true, decide_eq_true_eq] at hletter
    have hlow : ¬ c.toNat < 0x20 := by omega
    simp [Literal.isUnwritable, hlow]
  · decide

/-- The program of an artifact has legal literals only, binds the slug, and makes the spec of the
artifact, which is also the spec that is read from the labels. -/
theorem programOf_render {spec : AgentSpec} (hspec : spec.WellFormed) {a : Artifact}
    (h : spec.render = .ok a) :
    ∃ ts texts, tokens a.source.toList = some ts ∧
      (∀ p ∈ literalsOf ts, Legal p.1 p.2) ∧
      programOf ts = some ⟨a.slug, texts⟩ ∧ texts = textsOfSpec spec ∧
      AgentSpec.ofTexts texts = (spec, []) ∧ Artifact.parseSpec a.source = spec := by
  have hparse := Artifact.parse_rendered hspec h
  obtain ⟨hslug, l, hl, rfl⟩ := Artifact.renderAs_ok h
  have hdigest : '\n' ∉ spec.digest.toList := fun hmem =>
    absurd (Sha256.not_blank_of_mem_hexDigest hmem) (by decide)
  have hordinary := ordinary_slug spec.name
  have hlegal := legal_literalOf hl
  obtain ⟨closing, hreads, hclosing⟩ := reads_sourceOf hdigest hordinary.readsAs
    (fun part => (hlegal part).readsAs) (fun _ => mem_slugify)
    (exists_letter_of_slugify hslug)
  have hprogram := programOf_artifactTokens (quoted (slugify spec.name))
    (slugify spec.name).toList l (valueOf spec) closing
  rw [String.ofList_toList, textsAt_valueOf] at hprogram
  refine ⟨_, textsOfSpec spec, ?_, ?_, hprogram, rfl, ofTexts_textsOfSpec hspec, ?_⟩
  · rw [String.toList_ofList]
    exact tokens_of_reads hreads
  · exact legal_artifactTokens hordinary hlegal hclosing
  · rw [Artifact.parseSpec, hparse]

theorem programOf_render_forger : ∃ a, Artifact.forger.render = .ok a ∧
    ∃ ts texts, tokens a.source.toList = some ts ∧
      (∀ p ∈ literalsOf ts, Legal p.1 p.2) ∧
      programOf ts = some ⟨a.slug, texts⟩ ∧ texts = textsOfSpec Artifact.forger ∧
      AgentSpec.ofTexts texts = (Artifact.forger, []) ∧
      Artifact.parseSpec a.source = Artifact.forger := by
  have hvalid : Artifact.forger.validate = .ok () := rfl
  have hslug : slugify Artifact.forger.name ≠ "" := by decide +kernel
  have hliterals : Artifact.forger.literals.isOk = true := by decide +kernel
  obtain ⟨a, ha⟩ := Artifact.exists_renderAs hvalid hslug hliterals
  exact ⟨a, ha, programOf_render (by decide) ha⟩

end Agentry.Source
