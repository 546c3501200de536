import Agentry.Proofs.Artifact.Octets
import Agentry.Proofs.Artifact.Regions
import Agentry.Proofs.Artifact.Rendering
/-!
# Every slice exists

An offset that is the size of what stands before it lies between two characters, and all offsets of
a reader are of that kind: the ends of what a search matched, the fence of a prompt counted back
from its content, the beginning of a region plus an offset in it, the ends of a balanced scan. So a
reader that slices always has an answer, the same as one that holds on to suffixes.
-/
namespace Agentry.Sliced

open Artifact (Reading Regions decoded decoded_written findPrompt promptOpening scalar structured)
open Agentry.Balanced (Delimiters utf8Size)
open Json (Decoder)
open Literal (closing hashes rawWith)

/-! ## Slices of a text -/

theorem split?_append (before after : List Char) :
    split? (utf8Size before) (before ++ after) = some (before, after) := by
  induction before with
  | nil => cases after <;> rfl
  | cons c before ih =>
    obtain ⟨n, hn⟩ : ∃ n, utf8Size (c :: before) = n + 1 :=
      Nat.exists_eq_add_one.mpr (Nat.lt_of_lt_of_le c.utf8Size_pos (Nat.le_add_right _ _))
    have hsize : n + 1 - c.utf8Size = utf8Size before := by
      rw [← hn, Balanced.utf8Size_cons, Nat.add_sub_cancel_left]
    have hle : c.utf8Size ≤ n + 1 := hn ▸ Nat.le_add_right _ _
    rw [hn, List.cons_append, split?, if_pos hle, hsize, ih]
    rfl

theorem eq_of_split? {n : Nat} {cs before after : List Char}
    (h : split? n cs = some (before, after)) : cs = before ++ after ∧ utf8Size before = n := by
  induction cs generalizing n before with
  | nil =>
    cases n with
    | zero =>
      cases h
      exact ⟨rfl, rfl⟩
    | succ n => cases h
  | cons c cs ih =>
    cases n with
    | zero =>
      cases h
      exact ⟨rfl, rfl⟩
    | succ n =>
      rw [split?] at h
      split at h
      · rename_i hle
        obtain ⟨⟨a, b⟩, hsplit, heq⟩ := Option.map_eq_some_iff.mp h
        cases heq
        obtain ⟨rfl, hsize⟩ := ih hsplit
        refine ⟨rfl, ?_⟩
        rw [Balanced.utf8Size_cons, hsize]
        omega
      · cases h

/-- A slice exists when it lies within the text and between two characters. -/
theorem slice?_eq_some_iff {cs literal : List Char} {extent : Extent} :
    slice? cs extent = some literal ↔ ∃ before after, cs = before ++ (literal ++ after) ∧
      extent = ⟨utf8Size before, utf8Size before + utf8Size literal⟩ := by
  constructor
  · intro h
    obtain ⟨⟨before, rest⟩, hbefore, h⟩ := Option.bind_eq_some_iff.mp h
    dsimp only at h
    split at h
    · rename_i hle
      obtain ⟨⟨found, after⟩, hfound, h⟩ := Option.bind_eq_some_iff.mp h
      cases h
      obtain ⟨rfl, hstart⟩ := eq_of_split? hbefore
      obtain ⟨rfl, hsize⟩ := eq_of_split? hfound
      refine ⟨before, after, rfl, ?_⟩
      rw [hstart, hsize, Nat.add_sub_cancel' hle]
    · cases h
  · rintro ⟨before, after, rfl, rfl⟩
    simp only [slice?, split?_append, Option.bind_eq_bind, Option.bind_some,
      if_pos (Nat.le_add_right _ _), Nat.add_sub_cancel_left]
    rfl

theorem offsetOf_append (front rest : List Char) :
    offsetOf (front ++ rest) rest = utf8Size front := by
  simp [offsetOf]

theorem extentOf_append (front literal after : List Char) :
    extentOf (front ++ (literal ++ after)) literal after =
      ⟨utf8Size front, utf8Size front + utf8Size literal⟩ := by
  rw [extentOf, offsetOf_append, ← List.append_assoc, offsetOf_append]
  simp

/-! ## Where a search ends -/

/-- Above a label nothing but whole lines stands, and `rest` follows it. -/
def Labelled (part : SpecPart) (cs rest : List Char) : Prop :=
  ∃ above line, cs = above ++ line ∧ Label.Closed above ∧
    ∃ label ∈ part.labels, Label.Heads label line rest

theorem Labelled.suffix {part : SpecPart} {cs rest : List Char} (h : Labelled part cs rest) :
    ∃ front, cs = front ++ rest := by
  obtain ⟨above, line, rfl, -, label, -, hlabel⟩ := h
  obtain ⟨front, rfl⟩ := hlabel.suffix
  exact ⟨above ++ front, by rw [List.append_assoc]⟩

theorem labelled_of_find {α : Type} {part : SpecPart} {tail : List Char → Option α}
    {cs : List Char} {a : α} (h : Label.find part.labels tail cs = some a) :
    ∃ rest, Labelled part cs rest ∧ tail rest = some a := by
  obtain ⟨above, line, rest, hcs, habove, hlabel, htail⟩ := Label.exists_of_find h
  exact ⟨rest, ⟨above, line, hcs, habove, hlabel⟩, htail⟩

/-! ## The prompt -/

/-- What the two ways of reading say about a prompt: one gives the regions around its literal, the
other the extent of its literal. -/
inductive PromptRead (cs : List Char) :
    Reading String × Regions → Reading String × Option Extent → Prop
  | raw {front prompt after : List Char} {n : Nat} (hcs : cs = front ++ (rawWith n prompt ++ after))
    (hlabel : Labelled .prompt cs (rawWith n prompt ++ after))
    (hcut : Text.cut (closing n) (prompt ++ (closing n ++ after)) = some (prompt, after)) :
    PromptRead cs (.ok (String.ofList prompt), ⟨front, rawWith n prompt, after⟩)
      (.ok (String.ofList prompt),
        some ⟨utf8Size front, utf8Size front + utf8Size (rawWith n prompt)⟩)
  | quoted {front literal after : List Char} (hcs : cs = front ++ (literal ++ after))
    (hlabel : Labelled .prompt cs (literal ++ after))
    (hquoted : Label.quotedLiteral (fun _ => true) (literal ++ after) = some (literal, after)) :
    PromptRead cs (decoded Decoder.text literal, ⟨front, literal, after⟩)
      (decoded Decoder.text literal, some ⟨utf8Size front, utf8Size front + utf8Size literal⟩)
  | lost (cause : IssueCause) : PromptRead cs (.error cause, .whole cs) (.error cause, none)

theorem quotedPrompt_read (cs : List Char) :
    ∃ sliced, quotedPrompt? cs = some sliced ∧ PromptRead cs (Artifact.quotedPrompt cs) sliced := by
  have hplaced := Label.find_placed SpecPart.prompt.labels (Label.quotedLiteral fun _ => true) cs
  cases hfind : Label.find SpecPart.prompt.labels (fun rest =>
      (Label.quotedLiteral (fun _ => true) rest).map (rest, ·)) cs with
  | none =>
    rw [hfind] at hplaced
    have hread : Artifact.quotedPrompt cs = (.error .labelNotFound, .whole cs) := by
      unfold Artifact.quotedPrompt
      simp only [hfind]
    have hsliced : quotedPrompt? cs = some (.error .labelNotFound, none) := by
      rw [quotedPrompt?, hplaced]
      rfl
    exact ⟨_, hsliced, hread ▸ PromptRead.lost .labelNotFound⟩
  | some found =>
    obtain ⟨rest, hlabel, htail⟩ := labelled_of_find hfind
    obtain ⟨⟨literal, after⟩, hquoted, rfl⟩ := Option.map_eq_some_iff.mp htail
    obtain rfl := Label.eq_of_quotedLiteral hquoted
    obtain ⟨front, hcs⟩ := hlabel.suffix
    rw [hfind] at hplaced
    have hread : Artifact.quotedPrompt cs =
        (decoded Decoder.text literal, ⟨front, literal, after⟩) := by
      unfold Artifact.quotedPrompt
      simp only [hfind]
      rw [hcs, Artifact.around_append]
    have hslice : slice? cs ⟨utf8Size front, utf8Size front + utf8Size literal⟩ = some literal :=
      slice?_eq_some_iff.mpr ⟨front, after, hcs, rfl⟩
    have hsliced : quotedPrompt? cs = some (decoded Decoder.text literal,
        some ⟨utf8Size front, utf8Size front + utf8Size literal⟩) := by
      have hextent := extentOf_append front literal after
      rw [← hcs] at hextent
      simp only [quotedPrompt?, hplaced, Option.map_some, hextent, hslice, Option.bind_eq_bind,
        Option.bind_some]
      rfl
    exact ⟨_, hsliced, hread ▸ PromptRead.quoted hcs hlabel hquoted⟩

/-- The content of a raw literal begins behind an `r`, its hashes and a quote. -/
theorem content_of_opening {cs front body : List Char} {n : Nat}
    (hcs : cs = front ++ 'r' :: (hashes n ++ '"' :: body)) :
    offsetOf cs body = utf8Size front + (utf8Size (hashes n) + 2) ∧
      slice? cs ⟨offsetOf cs body, utf8Size cs⟩ = some body := by
  have hletters : 'r'.utf8Size = 1 ∧ '"'.utf8Size = 1 := by decide
  have hsplit : cs = front ++ 'r' :: (hashes n ++ ['"']) ++ body := by simp [hcs]
  have hsize : utf8Size (front ++ 'r' :: (hashes n ++ ['"'])) =
      utf8Size front + (utf8Size (hashes n) + 2) := by
    simp only [Balanced.utf8Size_append, Balanced.utf8Size_cons, Balanced.utf8Size_nil, hletters]
    omega
  rw [hsplit, offsetOf_append]
  refine ⟨hsize, slice?_eq_some_iff.mpr ⟨_, [], by rw [List.append_nil], ?_⟩⟩
  rw [Balanced.utf8Size_append _ body]

/-- The literal of a prompt reaches from its `r`, counted back from its content, to the end of the
hashes behind it. -/
theorem literal_of_closing {cs front prompt after : List Char} {n start : Nat}
    (hcs : cs = front ++ (rawWith n prompt ++ after))
    (hstart : start = utf8Size front + (utf8Size (hashes n) + 2)) :
    slice? cs ⟨start, start + utf8Size prompt⟩ = some prompt ∧
      utf8Size (hashes n) + 2 ≤ start ∧
      Extent.mk (start - utf8Size (hashes n) - 2)
        (start + utf8Size prompt + utf8Size ('"' :: hashes n)) =
          ⟨utf8Size front, utf8Size front + utf8Size (rawWith n prompt)⟩ := by
  have hletters : 'r'.utf8Size = 1 ∧ '"'.utf8Size = 1 := by decide
  have hsize : utf8Size (front ++ 'r' :: (hashes n ++ ['"'])) = start := by
    simp only [Balanced.utf8Size_append, Balanced.utf8Size_cons, Balanced.utf8Size_nil, hletters]
    omega
  have hraw : utf8Size (rawWith n prompt) =
      utf8Size (hashes n) + 2 + utf8Size prompt + utf8Size ('"' :: hashes n) := by
    simp only [rawWith, Balanced.utf8Size_append, Balanced.utf8Size_cons, hletters]
    omega
  refine ⟨slice?_eq_some_iff.mpr ⟨_, closing n ++ after, ?_, by rw [hsize]⟩, by omega, ?_⟩
  · rw [hcs, Literal.rawWith_append]
    simp
  · rw [Extent.mk.injEq, hraw]
    omega

/-- A prompt as a raw literal, which the first fence after its opening closes. -/
theorem rawPrompt_read {cs front prompt after : List Char} {n : Nat}
    (hcs : cs = front ++ (rawWith n prompt ++ after))
    (hlabel : Labelled .prompt cs (rawWith n prompt ++ after))
    (hfind : Label.find SpecPart.prompt.labels promptOpening cs =
      some (rawWith n prompt ++ after, hashes n, prompt ++ (closing n ++ after)))
    (hcut : Text.cut (closing n) (prompt ++ (closing n ++ after)) = some (prompt, after)) :
    ∃ sliced, prompt? cs = some sliced ∧ PromptRead cs (findPrompt cs) sliced := by
  have hplaced := Label.find_placed SpecPart.prompt.labels Label.rawOpening cs
  unfold promptOpening at hfind
  rw [hfind, Option.map_some] at hplaced
  have hcut : Text.cut ('"' :: hashes n) (prompt ++ (closing n ++ after)) = some (prompt, after) :=
    hcut
  have hread : findPrompt cs =
      (.ok (String.ofList prompt), ⟨front, rawWith n prompt, after⟩) := by
    unfold findPrompt
    simp only [hfind, hcut]
    rw [hcs, Artifact.around_append]
  have hbody : cs = front ++ 'r' :: (hashes n ++ '"' :: (prompt ++ (closing n ++ after))) := by
    rw [hcs, Literal.rawWith_append]
  obtain ⟨hstart, hcontent⟩ := content_of_opening hbody
  obtain ⟨hprompt, hfence, hextent⟩ := literal_of_closing hcs hstart
  have hsliced : prompt? cs = some (.ok (String.ofList prompt),
      some ⟨utf8Size front, utf8Size front + utf8Size (rawWith n prompt)⟩) := by
    simp only [prompt?, hplaced, hcontent, hcut, hprompt, Option.bind_eq_bind, Option.bind_some,
      if_pos hfence, hextent]
    rfl
  exact ⟨_, hsliced, hread ▸ PromptRead.raw hcs hlabel hcut⟩

theorem findPrompt_read (cs : List Char) :
    ∃ sliced, prompt? cs = some sliced ∧ PromptRead cs (findPrompt cs) sliced := by
  have hplaced := Label.find_placed SpecPart.prompt.labels Label.rawOpening cs
  cases hfind : Label.find SpecPart.prompt.labels (fun rest =>
      (Label.rawOpening rest).map (rest, ·)) cs with
  | none =>
    rw [hfind] at hplaced
    have hread : findPrompt cs = Artifact.quotedPrompt cs := by
      unfold findPrompt
      simp only [hfind]
    have hsliced : prompt? cs = quotedPrompt? cs := by
      rw [prompt?, hplaced]
      rfl
    rw [hread, hsliced]
    exact quotedPrompt_read cs
  | some found =>
    obtain ⟨rest, hlabel, htail⟩ := labelled_of_find hfind
    obtain ⟨⟨fence, body⟩, hopening, rfl⟩ := Option.map_eq_some_iff.mp htail
    obtain ⟨n, rfl, rfl⟩ := Label.exists_of_rawOpening hopening
    obtain ⟨front, hcs⟩ := hlabel.suffix
    cases hcut : Text.cut ('"' :: hashes n) body with
    | none =>
      obtain ⟨-, hcontent⟩ := content_of_opening hcs
      rw [hfind] at hplaced
      have hread : findPrompt cs = (.error .unterminated, .whole cs) := by
        unfold findPrompt
        simp only [hfind, hcut]
      have hsliced : prompt? cs = some (.error .unterminated, none) := by
        simp only [prompt?, hplaced, Option.map_some, hcontent, hcut, Option.bind_eq_bind,
          Option.bind_some]
        rfl
      exact ⟨_, hsliced, hread ▸ PromptRead.lost .unterminated⟩
    | some pieces =>
      obtain ⟨prompt, after⟩ := pieces
      have hbody : body = prompt ++ (closing n ++ after) := by
        rw [Text.eq_of_cut hcut, List.append_assoc]
        rfl
      rw [hbody] at hcs hlabel hfind hcut
      rw [← Literal.rawWith_append] at hcs hlabel hfind
      exact rawPrompt_read hcs hlabel hfind hcut

/-! ## The other parts -/

/-- The regions that an extent of a prompt's literal leaves. -/
inductive Around (cs : List Char) : Regions → Option Extent → Prop
  | nowhere : Around cs (.whole cs) none
  | somewhere {before literal after : List Char} (hcs : cs = before ++ (literal ++ after)) :
    Around cs ⟨before, literal, after⟩
      (some ⟨utf8Size before, utf8Size before + utf8Size literal⟩)

theorem PromptRead.around {cs : List Char} {read : Reading String × Regions}
    {sliced : Reading String × Option Extent} (h : PromptRead cs read sliced) :
    sliced.1 = read.1 ∧ Around cs read.2 sliced.2 := by
  cases h with
  | raw hcs _ _ => exact ⟨rfl, .somewhere hcs⟩
  | quoted hcs _ _ => exact ⟨rfl, .somewhere hcs⟩
  | lost cause => exact ⟨rfl, .nowhere⟩

theorem Around.eq {cs : List Char} {regions : Regions} {extent : Option Extent}
    (h : Around cs regions extent) :
    cs = regions.before ++ (regions.literal ++ regions.after) := by
  cases h with
  | nowhere => simp [Regions.whole]
  | somewhere hcs => exact hcs

/-- A search finds something in the region before the literal, or else in the one after it. -/
theorem Around.find? {cs : List Char} {regions : Regions} {extent : Option Extent}
    (h : Around cs regions extent) {α : Type} (search : List Char → Option α)
    (hnil : search [] = none) : find? cs search (spans cs extent) =
      some (((search regions.before).map (0, ·)).or ((search regions.after).map
        (utf8Size (regions.before ++ regions.literal), ·))) := by
  cases h with
  | nowhere =>
    have hwhole : slice? cs ⟨0, utf8Size cs⟩ = some cs :=
      slice?_eq_some_iff.mpr ⟨[], [], by simp, by simp⟩
    simp only [spans, Sliced.find?, hwhole, Option.bind_eq_bind, Option.bind_some, Regions.whole,
      hnil]
    cases search cs <;> rfl
  | @somewhere before literal after hcs =>
    have hbefore : slice? cs ⟨0, utf8Size before⟩ = some before :=
      slice?_eq_some_iff.mpr ⟨[], literal ++ after, hcs, by simp⟩
    have hafter : slice? cs ⟨utf8Size before + utf8Size literal, utf8Size cs⟩ = some after :=
      slice?_eq_some_iff.mpr ⟨before ++ literal, [], by simp [hcs], by simp [hcs, Nat.add_assoc]⟩
    simp only [spans, Sliced.find?, hbefore, hafter, Option.bind_eq_bind, Option.bind_some,
      Balanced.utf8Size_append]
    cases search before with
    | some found => rfl
    | none => cases search after <;> rfl

theorem find_nil {α : Type} (part : SpecPart) (tail : List Char → Option α) :
    Label.find part.labels tail [] = none :=
  Label.find_eq_none part.begin_initial List.not_mem_nil

/-- An extent in a region, shifted by where the region begins, is one of the whole text. -/
theorem slice?_shift {cs above below front literal after : List Char}
    (hcs : cs = above ++ (front ++ (literal ++ after) ++ below)) :
    slice? cs ((extentOf (front ++ (literal ++ after)) literal after).shift (utf8Size above)) =
      some literal := by
  refine slice?_eq_some_iff.mpr ⟨above ++ front, after ++ below, by simp [hcs], ?_⟩
  rw [extentOf_append, Extent.shift, Balanced.utf8Size_append]
  simp only [Nat.add_assoc]

theorem eq_of_find_quoted {part : SpecPart} {allowed : Char → Bool} {cs literal after : List Char}
    (h : Label.find part.labels (Label.quotedLiteral allowed) cs = some (literal, after)) :
    ∃ front, cs = front ++ (literal ++ after) := by
  obtain ⟨rest, hlabel, htail⟩ := labelled_of_find h
  rw [Label.eq_of_quotedLiteral htail] at hlabel
  exact hlabel.suffix

theorem Around.scalar? {cs : List Char} {regions : Regions} {extent : Option Extent}
    (h : Around cs regions extent) (part : SpecPart) :
    scalar? part cs (spans cs extent) = some (scalar part regions) := by
  have hcs := h.eq
  rw [Sliced.scalar?, h.find? _ ?nothing, scalar]
  case nothing =>
    rw [find_nil]
    rfl
  simp only [Option.bind_eq_bind, Option.bind_some]
  cases hbefore : Label.find part.labels (Label.quotedLiteral (· != '\n')) regions.before with
  | some found =>
    obtain ⟨literal, after⟩ := found
    obtain ⟨front, hfront⟩ := eq_of_find_quoted hbefore
    rw [hfront] at hcs ⊢
    have hslice := slice?_shift (show cs = [] ++ _ from hcs)
    simp only [Option.map_some, Option.some_or, ← Balanced.utf8Size_nil, hslice, Option.bind_some]
    rfl
  | none =>
    cases hafter : Label.find part.labels (Label.quotedLiteral (· != '\n')) regions.after with
    | some found =>
      obtain ⟨literal, after⟩ := found
      obtain ⟨front, hfront⟩ := eq_of_find_quoted hafter
      rw [hfront, ← List.append_assoc, ← List.append_nil (front ++ _)] at hcs
      rw [hfront]
      simp only [Option.map_none, Option.none_or, Option.map_some, slice?_shift hcs,
        Option.bind_some]
      rfl
    | none => rfl

variable {α : Type} {opening ending : Char} (decoder : Decoder α)

theorem document?_append (hdelimiters : Delimiters opening ending) (front rest : List Char) :
    document? opening ending decoder (front ++ rest) (utf8Size front) =
      some (Artifact.scanned opening ending decoder rest) := by
  obtain ⟨hopening, hending⟩ := ascii_of_delimiters hdelimiters
  rw [document?, balanced?_octets hopening hending, Artifact.scanned]
  simp only [Option.bind_eq_bind, Option.bind_some]
  cases hspan : Balanced.span opening ending rest with
  | error cause => rfl
  | ok s =>
    obtain ⟨hrest, -⟩ := Balanced.eq_of_span hspan
    have hslice : slice? (front ++ rest) (extentFrom (utf8Size front) s) = some s.literal := by
      refine slice?_eq_some_iff.mpr ⟨front ++ s.before, s.after, ?_, ?_⟩
      · rw [hrest, List.append_assoc]
      · rw [extentFrom, Balanced.utf8Size_append]
    simp only [Except.map, hslice, Option.bind_some]
    rfl

theorem Around.structured? {cs : List Char} {regions : Regions} {extent : Option Extent}
    (h : Around cs regions extent) (hdelimiters : Delimiters opening ending) (part : SpecPart) :
    structured? part opening ending decoder cs (spans cs extent) =
      some (structured part opening ending decoder regions) := by
  have hcs := h.eq
  rw [Sliced.structured?, h.find? _ ?nothing, Artifact.structured_eq, Artifact.afterPart]
  case nothing =>
    rw [find_nil]
    rfl
  simp only [Option.bind_eq_bind, Option.bind_some]
  cases hbefore : Label.find part.labels some regions.before with
  | some rest =>
    obtain ⟨_, hlabel, hrest⟩ := labelled_of_find hbefore
    cases hrest
    obtain ⟨front, hfront⟩ := hlabel.suffix
    rw [hfront, List.append_assoc] at hcs
    simp only [hfront, Option.map_some, Option.some_or, offsetOf_append, Nat.zero_add]
    rw [hcs, document?_append decoder hdelimiters, List.append_assoc]
  | none =>
    cases hafter : Label.find part.labels some regions.after with
    | some rest =>
      obtain ⟨_, hlabel, hrest⟩ := labelled_of_find hafter
      cases hrest
      obtain ⟨front, hfront⟩ := hlabel.suffix
      rw [hfront, ← List.append_assoc, ← List.append_assoc] at hcs
      simp only [hfront, Option.map_none, Option.none_or, Option.map_some, offsetOf_append]
      rw [hcs, ← Balanced.utf8Size_append, document?_append decoder hdelimiters]
    | none => rfl

/-- Every slice that a reader takes exists, and what it reads is what is read without slices. -/
theorem parse?_eq (text : String) : parse? text = some (Artifact.parse text) := by
  obtain ⟨⟨prompt, extent⟩, hsliced, hread⟩ := findPrompt_read text.toList
  obtain ⟨rfl, haround⟩ := hread.around
  rw [parse?, parseChars?, hsliced]
  simp only [Option.bind_eq_bind, Option.bind_some, haround.scalar?,
    haround.structured? _ .brackets, haround.structured? _ .braces]
  rfl

end Agentry.Sliced
