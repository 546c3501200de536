import Agentry.Text.Lowercase
import Mathlib.Data.List.Basic
import Mathlib.Data.List.Forall2
/-!
# What lower case keeps

The case of the letters `A` to `Z` is lost in lower case, and a pattern that is found once they are
small is found in lower case too. Whether a small sigma is written as one at the end of a word does
not matter to a pattern without sigmas.
-/
namespace Agentry.Text

theorem exists_map_eq_of_infix {f : Char → Char} {pattern cs : List Char}
    (h : pattern <:+: cs.map f) :
    ∃ front piece rest, cs = front ++ (piece ++ rest) ∧ piece.map f = pattern := by
  obtain ⟨before, after, heq⟩ := h
  rw [List.append_assoc] at heq
  obtain ⟨front, tail, hcs, -, htail⟩ := List.map_eq_append_iff.mp heq.symm
  obtain ⟨piece, rest, hsplit, hpiece, -⟩ := List.map_eq_append_iff.mp htail
  exact ⟨front, piece, rest, by rw [hcs, hsplit], hpiece⟩

/-! ## The letters `A` to `Z` -/

theorem asciiLower_cases (c : Char) :
    ¬(65 ≤ c.toNat ∧ c.toNat ≤ 90) ∧ asciiLower c = c ∨
      65 ≤ c.toNat ∧ c.toNat ≤ 90 ∧ (asciiLower c).toNat = c.toNat + 32 := by
  rw [asciiLower]
  split
  · rename_i h
    simp only [Bool.and_eq_true, decide_eq_true_eq] at h
    have hvalid : (c.toNat + 32).isValidChar := Or.inl (by omega)
    refine Or.inr ⟨h.1, h.2, ?_⟩
    rw [Char.ofNat, dif_pos hvalid]
    rfl
  · rename_i h
    exact Or.inl ⟨by simpa using h, rfl⟩

theorem asciiLower_eq_letter_iff {c small capital : Char} (hlow : 65 ≤ capital.toNat)
    (hhigh : capital.toNat ≤ 90) (hsmall : small.toNat = capital.toNat + 32) :
    asciiLower c = small ↔ c = small ∨ c = capital := by
  rcases asciiLower_cases c with ⟨hcase, heq⟩ | ⟨_, hle, hvalue⟩
  · have hcapital : c ≠ capital := by
      rintro rfl
      exact hcase ⟨hlow, hhigh⟩
    rw [heq, or_iff_left hcapital]
  · simp only [← Char.toNat_inj, hvalue]
    omega

/-- Letters are told from others in lower case alone, whichever case they are in. -/
theorem map_asciiLower_eq_letters_iff {cs : List Char} {letters : List (Char × Char)}
    (h : ∀ letter ∈ letters, 65 ≤ letter.2.toNat ∧ letter.2.toNat ≤ 90 ∧
      letter.1.toNat = letter.2.toNat + 32) :
    cs.map asciiLower = letters.map Prod.fst ↔
      List.Forall₂ (fun c letter => c = letter.1 ∨ c = letter.2) cs letters := by
  induction letters generalizing cs with
  | nil => simp
  | cons letter letters ih =>
    obtain ⟨⟨hlow, hhigh, hsmall⟩, hletters⟩ := List.forall_mem_cons.mp h
    cases cs with
    | nil => simp
    | cons c cs =>
      rw [List.map_cons, List.map_cons, List.cons_eq_cons, List.forall₂_cons,
        asciiLower_eq_letter_iff hlow hhigh hsmall, ih hletters]

theorem lowercaseChar_of_small {c : Char} (h : (asciiLower c).toNat < 128) :
    lowercaseChar c = [asciiLower c] := by
  have hc : c.toNat < 128 := by
    rcases asciiLower_cases c with ⟨-, heq⟩ | ⟨-, hle, -⟩
    · rwa [heq] at h
    · omega
  rw [lowercaseChar, if_pos hc, asciiLower]

theorem lowercaseChar_asciiLower (c : Char) : lowercaseChar (asciiLower c) = lowercaseChar c := by
  rcases asciiLower_cases c with ⟨-, heq⟩ | ⟨hlow, hhigh, hnat⟩
  · rw [heq]
  · have hsmall : asciiLower (asciiLower c) = asciiLower c := by
      rcases asciiLower_cases (asciiLower c) with ⟨-, heq⟩ | ⟨-, hle, -⟩
      · exact heq
      · omega
    rw [lowercaseChar_of_small (by rw [hsmall]; omega), lowercaseChar_of_small (by omega), hsmall]

theorem lowercase_map_asciiLower (cs : List Char) :
    lowercase (cs.map asciiLower) = lowercase cs := by
  simp only [lowercase, List.flatMap_map, lowercaseChar_asciiLower]

theorem lowercase_of_small {cs : List Char} (h : ∀ c ∈ cs, (asciiLower c).toNat < 128) :
    lowercase cs = cs.map asciiLower := by
  rw [lowercase, List.flatMap_congr fun c hc => lowercaseChar_of_small (h c hc)]
  exact List.flatMap_pure_eq_map asciiLower cs

theorem infix_lowercase {pattern cs : List Char} (hascii : ∀ c ∈ pattern, c.toNat < 128)
    (h : pattern <:+: cs.map asciiLower) : pattern <:+: lowercase cs := by
  obtain ⟨front, piece, rest, rfl, rfl⟩ := exists_map_eq_of_infix h
  have hpiece : lowercase piece = piece.map asciiLower :=
    lowercase_of_small (by simpa using hascii)
  refine ⟨lowercase front, lowercase rest, ?_⟩
  rw [lowercase_append, lowercase_append, hpiece, List.append_assoc]

/-! ## Marks, which have no case -/

theorem asciiLower_eq_iff {c mark : Char} (h : mark.toNat < 65) :
    asciiLower c = mark ↔ c = mark := by
  rcases asciiLower_cases c with ⟨-, heq⟩ | ⟨hlow, -, hnat⟩
  · rw [heq]
  · constructor
    · rintro rfl
      omega
    · rintro rfl
      omega

theorem mem_map_asciiLower {cs : List Char} {mark : Char} (h : mark.toNat < 65) :
    mark ∈ cs.map asciiLower ↔ mark ∈ cs := by
  simp [asciiLower_eq_iff h]

theorem map_asciiLower_eq_iff {cs marks : List Char} (h : ∀ mark ∈ marks, mark.toNat < 65) :
    cs.map asciiLower = marks ↔ cs = marks := by
  induction cs generalizing marks with
  | nil => simp
  | cons c cs ih =>
    cases marks with
    | nil => simp
    | cons mark marks =>
      obtain ⟨hmark, hmarks⟩ := List.forall_mem_cons.mp h
      rw [List.map_cons, List.cons_eq_cons, List.cons_eq_cons, asciiLower_eq_iff hmark, ih hmarks]

/-! ## Small sigmas -/

def plainSigma (c : Char) : Char :=
  if c = 'ς' then 'σ' else c

/-- The same text, but for which of the two small sigmas stands where. -/
def SigmaAlike (cs ds : List Char) : Prop :=
  cs.map plainSigma = ds.map plainSigma

instance (cs ds : List Char) : Decidable (SigmaAlike cs ds) :=
  inferInstanceAs (Decidable (cs.map plainSigma = ds.map plainSigma))

theorem infix_map_plainSigma {pattern : List Char} (hsigma : 'σ' ∉ pattern) (hfinal : 'ς' ∉ pattern)
    (cs : List Char) : pattern <:+: cs.map plainSigma ↔ pattern <:+: cs := by
  have hkeep : ∀ piece : List Char, 'σ' ∉ piece.map plainSigma → piece.map plainSigma = piece := by
    intro piece hpiece
    refine (List.map_congr_left fun c hc => ?_).trans (List.map_id piece)
    rw [plainSigma, if_neg]
    · rfl
    · intro hc'
      subst hc'
      exact hpiece (List.mem_map_of_mem hc)
  constructor
  · intro h
    obtain ⟨front, piece, rest, rfl, rfl⟩ := exists_map_eq_of_infix h
    rw [hkeep piece hsigma]
    exact ⟨front, rest, by rw [List.append_assoc]⟩
  · intro h
    have hpattern : pattern.map plainSigma = pattern := by
      refine (List.map_congr_left fun c hc => ?_).trans (List.map_id pattern)
      refine if_neg fun hc' => hfinal ?_
      rwa [← hc']
    rw [← hpattern]
    exact h.map plainSigma

theorem SigmaAlike.infix_iff {pattern cs ds : List Char} (h : SigmaAlike cs ds)
    (hsigma : 'σ' ∉ pattern) (hfinal : 'ς' ∉ pattern) : pattern <:+: cs ↔ pattern <:+: ds := by
  rw [← infix_map_plainSigma hsigma hfinal cs, h, infix_map_plainSigma hsigma hfinal ds]

end Agentry.Text
