import Agentry.Proofs.Artifact.Parts
import Agentry.Proofs.Artifact.Slices
/-!
# Lines that carry a digest

A line carries a digest when its marker is the first text on it. All lines of an artifact are
searched for one, those of the prompt among them. So an artifact whose header has no digest is taken
for an edited one as soon as a line of its prompt begins with the marker.
-/
namespace Agentry.Artifact

open Label (afterLineFeeds lineStarts)
open Sliced (Labelled)

/-! ## Lines with a marker -/

/-- The first line of a text begins with the marker of a digest, blanks apart. -/
def Stamped (start : List Char) : Prop :=
  digestMarker.toList <+: Text.trimLeft (start.takeWhile (· ≠ '\n'))

instance (start : List Char) : Decidable (Stamped start) :=
  inferInstanceAs (Decidable (_ <+: _))

theorem marker_prefix_endedLine (line : List Char) :
    digestMarker.toList <+: Text.trimLeft (Text.endedLine line) ↔
      digestMarker.toList <+: Text.trimLeft line := by
  rw [Text.endedLine]
  split
  · rename_i hlast
    obtain ⟨front, rfl⟩ := List.getLast?_eq_some_iff.mp hlast
    have hmarker : ∀ more, digestMarker.toList ≠ more ++ ['\r'] := by
      intro more heq
      have hmem : '\r' ∈ digestMarker.toList := heq ▸ List.mem_append_right _ List.mem_cons_self
      exact absurd hmem (by decide)
    rw [List.dropLast_concat, Text.trimLeft_concat front (by decide)]
    split
    · rename_i hnil
      rw [hnil]
    · rw [List.prefix_concat_iff, or_iff_right (hmarker _)]
  · rfl

theorem stampedDigest_eq_none_iff (cs : List Char) :
    stampedDigest cs = none ↔ ∀ start ∈ lineStarts cs, ¬ Stamped start := by
  have hlines : (∀ start ∈ lineStarts cs, ¬ Stamped start) ↔
      ∀ piece ∈ Text.splitOn '\n' cs, ¬ digestMarker.toList <+: Text.trimLeft piece := by
    rw [← Label.takeWhile_lineStarts, List.forall_mem_map]
    rfl
  rw [hlines, ← Text.forall_mem_lines (fun line => not_congr (marker_prefix_endedLine line))
    (by decide), stampedDigest, List.findSome?_eq_none_iff]
  simp only [Option.map_eq_none_iff, Label.dropText_eq_none_iff]

theorem digest_eq_missing_iff (text : String) :
    (parse text).digest = .missing ↔ ∀ start ∈ lineStarts text.toList, ¬ Stamped start := by
  have hstatus : (parse text).digest = digestStatus text.toList (parse text).spec :=
    digest_parseChars text.toList
  rw [hstatus, digestStatus, ← stampedDigest_eq_none_iff]
  cases stampedDigest text.toList with
  | none => simp
  | some stamped =>
    simp only [reduceCtorEq, iff_false]
    split <;> simp

/-! ## Lines around the prompt -/

/-- A place in a text, given by what follows it, that does not lie within the literal of the
prompt. -/
def Regions.Outside (regions : Regions) (start : List Char) : Prop :=
  (regions.literal ++ regions.after).length ≤ start.length ∨ start.length ≤ regions.after.length

instance (regions : Regions) (start : List Char) : Decidable (regions.Outside start) :=
  inferInstanceAs (Decidable (_ ∨ _))

def StampedOutside (cs : List Char) : Prop :=
  ∃ start ∈ lineStarts cs, (findPrompt cs).2.Outside start ∧ Stamped start

instance (cs : List Char) : Decidable (StampedOutside cs) :=
  inferInstanceAs (Decidable (∃ start ∈ lineStarts cs, _))

def StampedInside (cs : List Char) : Prop :=
  ∃ start ∈ lineStarts cs, ¬ (findPrompt cs).2.Outside start ∧ Stamped start

instance (cs : List Char) : Decidable (StampedInside cs) :=
  inferInstanceAs (Decidable (∃ start ∈ lineStarts cs, _))

theorem stamped_iff (cs : List Char) :
    (∃ start ∈ lineStarts cs, Stamped start) ↔ StampedOutside cs ∨ StampedInside cs := by
  constructor
  · rintro ⟨start, hstart, hstamped⟩
    by_cases hplace : (findPrompt cs).2.Outside start
    · exact Or.inl ⟨start, hstart, hplace, hstamped⟩
    · exact Or.inr ⟨start, hstart, hplace, hstamped⟩
  · rintro (⟨start, hstart, -, hstamped⟩ | ⟨start, hstart, -, hstamped⟩)
    · exact ⟨start, hstart, hstamped⟩
    · exact ⟨start, hstart, hstamped⟩

/-- The lines that start outside a literal are those of the text before it and those behind it. -/
theorem stampedOutside_iff {before literal after : List Char}
    (hends : literal.getLast? ≠ some '\n') :
    (∃ start ∈ lineStarts (before ++ (literal ++ after)),
      Regions.Outside ⟨before, literal, after⟩ start ∧ Stamped start) ↔
    (∃ s ∈ lineStarts before, Stamped (s ++ (literal ++ after))) ∨
      ∃ s ∈ afterLineFeeds after, Stamped s := by
  rw [Label.lineStarts_append, Label.afterLineFeeds_append]
  simp only [List.mem_append, List.mem_map]
  constructor
  · rintro ⟨_, ⟨s, hs, rfl⟩ | ⟨s, hs, rfl⟩ | hs, houtside, hstamped⟩
    · exact Or.inl ⟨s, hs, hstamped⟩
    -- Such a line begins within the literal, because no line feed comes last in it.
    · exfalso
      have hlength := Label.length_lt_of_mem_afterLineFeeds hs
      have hne : s ≠ [] := by
        rintro rfl
        exact hends (Label.getLast?_of_nil_mem hs)
      have hpos := List.length_pos_iff.mpr hne
      simp only [Regions.Outside, List.length_append] at houtside
      omega
    · exact Or.inr ⟨_, hs, hstamped⟩
  · rintro (⟨s, hs, hstamped⟩ | ⟨s, hs, hstamped⟩)
    · exact ⟨_, Or.inl ⟨s, hs, rfl⟩, Or.inl (by simp), hstamped⟩
    · exact ⟨s, Or.inr (Or.inr hs),
        Or.inr (Nat.le_of_lt (Label.length_lt_of_mem_afterLineFeeds hs)), hstamped⟩

/-! ## The line of the prompt's label -/

theorem ne_newline {cs : List Char} (h : '\n' ∉ cs) : ∀ c ∈ cs, decide (c ≠ '\n') = true := by
  intro c hc
  rw [decide_eq_true_eq]
  rintro rfl
  exact h hc

theorem stamped_append {s : List Char} (h : '\n' ∈ s) (rest : List Char) :
    Stamped (s ++ rest) ↔ Stamped s := by
  obtain ⟨line, more, rfl, hline⟩ := List.eq_append_cons_of_mem h
  have hfirst : ∀ tail, (line ++ '\n' :: tail).takeWhile (· ≠ '\n') = line := by
    intro tail
    rw [List.takeWhile_append_of_pos (ne_newline hline)]
    simp
  rw [Stamped, Stamped, List.append_assoc, List.cons_append, hfirst, hfirst]

theorem not_stamped_of_heads {label : String} (hlabel : label ∈ SpecPart.prompt.labels)
    {line rest : List Char} (h : Label.Heads label line rest) : ¬ Stamped line := by
  obtain ⟨blanks, gap, after, rfl, hblanks⟩ := h
  have hinline : ∀ c ∈ blanks, Label.isInlineBlank c = true := hblanks blanks List.mem_cons_self
  have hblank : ∀ c ∈ blanks, Text.isBlank c = true := by
    intro c hc
    have hcases : c = ' ' ∨ c = '\t' := by simpa [Label.isInlineBlank] using hinline c hc
    rcases hcases with rfl | rfl <;> decide
  obtain ⟨tail, htail⟩ : ∃ tail, label.toList = 's' :: tail := by
    have hlabels : label = "system_prompt" ∨ label = "systemPrompt" := by
      simpa [SpecPart.labels] using hlabel
    rcases hlabels with rfl | rfl <;> exact ⟨_, rfl⟩
  obtain ⟨slashes, hslash⟩ : ∃ slashes, digestMarker.toList = '/' :: slashes := ⟨_, rfl⟩
  rw [Stamped, List.takeWhile_append_of_pos (ne_newline (Label.newline_not_mem_inline hinline)),
    Text.trimLeft, List.dropWhile_append_of_pos hblank, htail, hslash]
  simp [show Text.isBlank 's' = false by decide]

/-- Of the lines before the literal of a prompt, the last one is that of its label. -/
theorem stamped_before_iff {before rest : List Char}
    (h : Labelled .prompt (before ++ rest) rest) :
    (∃ s ∈ lineStarts before, Stamped (s ++ rest)) ↔
      ∃ s ∈ lineStarts before, '\n' ∈ s ∧ Stamped s := by
  obtain ⟨above, line, htext, habove, label, hlabel, hheads⟩ := h
  have hlabels : ∀ label ∈ SpecPart.prompt.labels, '\n' ∉ label.toList := by decide
  obtain ⟨front, hfront, hline⟩ := hheads.inLine (hlabels label hlabel)
  obtain rfl : before = above ++ front := by
    rw [hfront, ← List.append_assoc] at htext
    exact List.append_cancel_right htext
  constructor
  · rintro ⟨s, hs, hstamped⟩
    by_cases hmem : '\n' ∈ s
    · exact ⟨s, hs, hmem, (stamped_append hmem rest).mp hstamped⟩
    · obtain ⟨more, rfl, hmore⟩ := Label.exists_of_mem_lineStarts_last habove hline hs
      obtain rfl : more = [] := by
        rcases hmore with hnil | ⟨lines, rfl⟩
        · exact hnil
        · simp at hmem
      rw [List.nil_append, ← hfront] at hstamped
      exact absurd hstamped (not_stamped_of_heads hlabel hheads)
  · rintro ⟨s, hs, hmem, hstamped⟩
    exact ⟨s, hs, (stamped_append hmem rest).mpr hstamped⟩

/-! ## The literal of the prompt -/

theorem getLast?_rawWith (n : Nat) (cs : List Char) :
    (Literal.rawWith n cs).getLast? ≠ some '\n' := by
  intro hlast
  have hraw : Literal.rawWith n cs =
      ('r' :: Literal.hashes n ++ '"' :: cs) ++ Literal.closing n := by
    simp [Literal.rawWith, Literal.closing]
  have hmem : '\n' ∈ Literal.closing n := by
    have hclosing : Literal.closing n ≠ [] := List.cons_ne_nil _ _
    rw [hraw, List.getLast?_append, List.getLast?_eq_some_getLast hclosing,
      Option.some_or] at hlast
    exact Option.some.inj hlast ▸ List.getLast_mem hclosing
  rcases List.mem_cons.mp hmem with hquote | hhash
  · exact absurd hquote (by decide)
  · exact absurd (Literal.mem_hashes hhash) (by decide)

/-- The lines outside the literal of a prompt are whole lines before it and lines behind it. -/
theorem stampedOutside_surroundings {cs : List Char} (hfound : (findPrompt cs).2.literal ≠ []) :
    StampedOutside cs ↔
      (∃ s ∈ lineStarts (findPrompt cs).2.before, '\n' ∈ s ∧ Stamped s) ∨
        ∃ s ∈ afterLineFeeds (findPrompt cs).2.after, Stamped s := by
  obtain ⟨sliced, -, hread⟩ := Sliced.findPrompt_read cs
  rw [StampedOutside]
  generalize findPrompt cs = read at hfound hread ⊢
  cases hread with
  | raw hcs hlabel _ =>
    subst hcs
    rw [stampedOutside_iff (getLast?_rawWith _ _), stamped_before_iff hlabel]
  | quoted hcs hlabel hquoted =>
    subst hcs
    have hends := Label.getLast?_quotedLiteral hquoted
    rw [stampedOutside_iff (by simp [hends]), stamped_before_iff hlabel]
  | lost cause => exact absurd rfl hfound

/-- An artifact counts as one without a digest when no line of it carries one, outside its prompt
or inside. What stands around a prompt settles the lines outside, so another prompt in its place
makes a difference only where a line of that prompt carries a digest. -/
theorem digest_missing_iff_around {text : String}
    (hfound : (findPrompt text.toList).2.literal ≠ []) :
    ((parse text).digest = .missing ↔
      ¬ StampedOutside text.toList ∧ ¬ StampedInside text.toList) ∧
    ∀ other : String, (findPrompt other.toList).2.literal ≠ [] →
      (findPrompt other.toList).2.before = (findPrompt text.toList).2.before →
      (findPrompt other.toList).2.after = (findPrompt text.toList).2.after →
        (StampedOutside other.toList ↔ StampedOutside text.toList) ∧
        ((parse text).digest = .missing →
          ((parse other).digest = .missing ↔ ¬ StampedInside other.toList)) := by
  have hmissing : ∀ text : String, (parse text).digest = .missing ↔
      ¬ StampedOutside text.toList ∧ ¬ StampedInside text.toList := by
    intro text
    rw [digest_eq_missing_iff, ← not_or, ← stamped_iff]
    simp
  refine ⟨hmissing text, fun other hother hbefore hafter => ?_⟩
  have hsame : StampedOutside other.toList ↔ StampedOutside text.toList := by
    rw [stampedOutside_surroundings hother, stampedOutside_surroundings hfound, hbefore, hafter]
  refine ⟨hsame, fun htext => ?_⟩
  rw [hmissing other, hsame]
  exact and_iff_right ((hmissing text).mp htext).1

/-- An artifact without a header, up to the content of its prompt. -/
def bareFront : String :=
  "name: \"Clerk\"\ndescription: \"Files\"\nversion: \"1\"\nsystem_prompt: r\""

def bareBack : String :=
  "\"\ntools: []\ninput_schema: \x7b\x7d\noutput_schema: \x7b\x7d\n"

def bareArtifact (prompt : String) : String := bareFront ++ prompt ++ bareBack

theorem toList_bareArtifact (prompt : String) :
    (bareArtifact prompt).toList = bareFront.toList ++ prompt.toList ++ bareBack.toList := by
  rw [bareArtifact, String.toList_append, String.toList_append]

theorem bareArtifact_brief :
    (findPrompt (bareArtifact "Be brief.").toList).2.literal ≠ [] ∧
      ¬ StampedOutside (bareArtifact "Be brief.").toList ∧
      ¬ StampedInside (bareArtifact "Be brief.").toList := by
  simp only [toList_bareArtifact]
  decide +kernel

/-- The second line of this prompt begins with the marker of a digest. -/
theorem bareArtifact_quoting :
    (findPrompt (bareArtifact "Quote:\n// spec-digest: 0").toList).2.literal ≠ [] ∧
      ¬ StampedOutside (bareArtifact "Quote:\n// spec-digest: 0").toList ∧
      StampedInside (bareArtifact "Quote:\n// spec-digest: 0").toList ∧
      stampedDigest (bareArtifact "Quote:\n// spec-digest: 0").toList = some ['0', '"'] := by
  simp only [toList_bareArtifact]
  decide +kernel

theorem bareArtifact_around :
    (findPrompt (bareArtifact "Quote:\n// spec-digest: 0").toList).2.before =
        (findPrompt (bareArtifact "Be brief.").toList).2.before ∧
      (findPrompt (bareArtifact "Quote:\n// spec-digest: 0").toList).2.after =
        (findPrompt (bareArtifact "Be brief.").toList).2.after := by
  simp only [toList_bareArtifact]
  decide +kernel

/-- What the prompt says makes the difference. -/
theorem digest_missing_iff_around_bareArtifact :
    (parse (bareArtifact "Be brief.")).digest = .missing ∧
      (parse (bareArtifact "Quote:\n// spec-digest: 0")).digest ≠ .missing := by
  obtain ⟨hbrief, houtside, hinside⟩ := bareArtifact_brief
  obtain ⟨hquoting, -, hstamped, -⟩ := bareArtifact_quoting
  obtain ⟨hbefore, hafter⟩ := bareArtifact_around
  obtain ⟨hmissing, haround⟩ := digest_missing_iff_around hbrief
  have htext := hmissing.mpr ⟨houtside, hinside⟩
  have hother := (haround _ hquoting hbefore hafter).2 htext
  exact ⟨htext, fun h => hother.mp h hstamped⟩

/-- An artifact without a header that counts as an edited one for what its prompt says. -/
theorem digest_edited_by_prompt :
    (findPrompt (bareArtifact "Quote:\n// spec-digest: 0").toList).2.literal ≠ [] ∧
      ¬ StampedOutside (bareArtifact "Quote:\n// spec-digest: 0").toList ∧
      (parse (bareArtifact "Quote:\n// spec-digest: 0")).digest = .edited := by
  obtain ⟨hfound, houtside, -, hstamped⟩ := bareArtifact_quoting
  refine ⟨hfound, houtside, ?_⟩
  have hdiffer : ∀ spec : AgentSpec, ['0', '"'] ≠ spec.digest.toList := by
    intro spec heq
    have hmem : '"' ∈ (Sha256.hexDigest spec.digestText).toList := by
      rw [← AgentSpec.digest, ← heq]
      simp
    obtain ⟨n, hn, hdigit⟩ := Sha256.mem_hexDigest hmem
    have hall : ∀ m : Fin 16, '"' ≠ Text.hexDigit m := by decide
    exact hall ⟨n, hn⟩ hdigit
  have hstatus : (parse (bareArtifact "Quote:\n// spec-digest: 0")).digest = digestStatus _ _ :=
    digest_parseChars _
  rw [hstatus, digestStatus, hstamped]
  exact if_neg (hdiffer _)

end Agentry.Artifact
