import Agentry.Proofs.Slug
import Agentry.Proofs.Store.Slot
import Agentry.Proofs.Text
import Agentry.Proofs.Text.Lowercase
import Mathlib.Data.List.Destutter
import Mathlib.Data.List.DropRight
/-!
# Slugs made in stages

What one pass over a name does can be done in five: small letters, nothing but letters, digits,
hyphens and blanks, a hyphen for every run of blanks, one hyphen for every run of hyphens, and none
at the ends. The stages take each other's output as it is, so a hyphen, a dropped character and a
blank may meet in any order.
-/
namespace Agentry

namespace Slug

def isKept (c : Char) : Bool :=
  isSlugLetter c || c = '-' || Text.isBlank c

/-- The first character of every run that satisfies `p`, and all that lie outside of such runs. -/
def condensed (p : Char → Bool) (cs : List Char) : List Char :=
  cs.destutter fun c d => ¬(p c = true ∧ p d = true)

def hyphenOf (c : Char) : Char :=
  if Text.isBlank c then '-' else c

/-- The slug of a text in small letters. -/
def staged (lowered : List Char) : List Char :=
  let kept := lowered.filter isKept
  let hyphened := (condensed Text.isBlank kept).map hyphenOf
  let single := condensed (· = '-') hyphened
  (single.dropWhile (· = '-')).rdropWhile (· = '-')

/-! ## Runs -/

theorem condensed_run {p : Char → Bool} {c d : Char} (hc : p c = true) (hd : p d = true)
    (cs : List Char) : condensed p (c :: d :: cs) = condensed p (c :: cs) := by
  rw [condensed, List.destutter_cons_cons, if_neg (by simp [hc, hd]), condensed,
    List.destutter_cons']

theorem condensed_apart {p : Char → Bool} {c d : Char} (h : ¬(p c = true ∧ p d = true))
    (cs : List Char) : condensed p (c :: d :: cs) = c :: condensed p (d :: cs) := by
  rw [condensed, List.destutter_cons_cons, if_pos h, condensed, List.destutter_cons']

theorem collapse_hyphens (atBreak : Bool) (cs : List Char) :
    collapse atBreak ('-' :: '-' :: cs) = collapse atBreak ('-' :: cs) := by
  cases atBreak <;> simp [collapse]

theorem collapse_cons_congr {cs ds : List Char}
    (h : ∀ atBreak, collapse atBreak cs = collapse atBreak ds) (atBreak : Bool) (c : Char) :
    collapse atBreak (c :: cs) = collapse atBreak (c :: ds) := by
  simp only [collapse, h]

theorem condensed_cons_eq (c : Char) (cs : List Char) :
    condensed (· = '-') (c :: cs) = c :: collapse (decide (c = '-')) cs := by
  induction cs generalizing c with
  | nil => rfl
  | cons d cs ih =>
    by_cases hrun : c = '-' ∧ d = '-'
    · obtain ⟨rfl, rfl⟩ := hrun
      rw [condensed_run (by simp) (by simp), ih]
      simp [collapse]
    · rw [condensed_apart (by simpa using hrun), ih]
      by_cases hd : d = '-'
      · have hc : c ≠ '-' := fun hc => hrun ⟨hc, hd⟩
        simp [collapse, hc, hd]
      · simp [collapse, hd]

/-- Hyphens that repeat are dropped where a hyphen at the front is let stand. -/
theorem condensed_hyphens (cs : List Char) : condensed (· = '-') cs = collapse false cs := by
  cases cs with
  | nil => rfl
  | cons c cs =>
    rw [condensed_cons_eq]
    by_cases hc : c = '-' <;> simp [collapse, hc]

theorem collapse_true (cs : List Char) :
    collapse true cs = (collapse false cs).dropWhile (· = '-') := by
  induction cs with
  | nil => rfl
  | cons c cs ih =>
    by_cases hc : c = '-'
    · have hsame : (collapse true cs).dropWhile (· = '-') = collapse true cs := by
        rw [ih, List.dropWhile_idempotent]
      simp [collapse, hc, hsame]
    · simp [collapse, hc]

/-- To collapse hyphens it does not matter whether a run of blanks gives one hyphen or several. -/
theorem collapse_condensed_blanks (atBreak : Bool) (cs : List Char) :
    collapse atBreak ((condensed Text.isBlank cs).map hyphenOf) =
      collapse atBreak (cs.map hyphenOf) := by
  cases cs with
  | nil => rfl
  | cons c cs =>
    induction cs generalizing c atBreak with
    | nil => rfl
    | cons d cs ih =>
      by_cases hrun : Text.isBlank c = true ∧ Text.isBlank d = true
      · have hc : hyphenOf c = '-' := if_pos hrun.1
        have hd : hyphenOf d = '-' := if_pos hrun.2
        rw [condensed_run hrun.1 hrun.2, ih, List.map_cons, List.map_cons, List.map_cons, hc, hd,
          collapse_hyphens]
      · rw [condensed_apart hrun, List.map_cons, List.map_cons]
        exact collapse_cons_congr (fun atBreak => ih atBreak d) atBreak _

/-! ## The one pass and the stages -/

theorem isBlank_of_letter {c : Char} (h : isSlugLetter c = true) : Text.isBlank c = false := by
  simp only [isSlugLetter, Bool.or_eq_true, Bool.and_eq_true, decide_eq_true_eq] at h
  exact Text.isBlank_of_visible (by omega) (by omega)

theorem mapped_eq (c : Char) : mapped c = if isKept c then some (hyphenOf c) else none := by
  by_cases hletter : isSlugLetter c = true
  · simp [mapped, isKept, hyphenOf, hletter, isBlank_of_letter hletter]
  · by_cases hblank : Text.isBlank c = true
    · simp [mapped, isKept, hyphenOf, hletter, hblank]
    · by_cases hhyphen : c = '-' <;> simp [mapped, isKept, hyphenOf, hletter, hblank, hhyphen]

theorem filterMap_mapped (cs : List Char) :
    cs.filterMap mapped = (cs.filter isKept).map hyphenOf := by
  induction cs with
  | nil => rfl
  | cons c cs ih =>
    by_cases hkept : isKept c = true <;> simp [mapped_eq c, hkept, ih]

theorem ofChars_eq_staged (cs : List Char) : ofChars cs = staged (Text.lowercase cs) := by
  rw [staged, condensed_hyphens, ← collapse_true, collapse_condensed_blanks, ← filterMap_mapped]
  rfl

theorem filter_isKept_plainSigma (cs : List Char) :
    (cs.map Text.plainSigma).filter isKept = cs.filter isKept := by
  induction cs with
  | nil => rfl
  | cons c cs ih =>
    by_cases hsigma : c = 'ς'
    · have hdropped : isKept 'ς' = false ∧ isKept (Text.plainSigma 'ς') = false := by decide
      subst hsigma
      simp [hdropped, ih]
    · have hplain : Text.plainSigma c = c := if_neg hsigma
      simp only [List.map_cons, hplain, List.filter_cons, ih]

theorem staged_of_sigmaAlike {cs ds : List Char} (h : Text.SigmaAlike cs ds) :
    staged cs = staged ds := by
  have hkept : cs.filter isKept = ds.filter isKept := by
    rw [← filter_isKept_plainSigma cs, h, filter_isKept_plainSigma]
  rw [staged, hkept, staged]

/-! ## Words between hyphens -/

def IsWord (word : List Char) : Prop :=
  word ≠ [] ∧ ∀ c ∈ word, isSlugLetter c = true

/-- A word, and any number of words behind a hyphen each. -/
def Worded (cs : List Char) : Prop :=
  ∃ (word : List Char) (rest : List (List Char)),
    IsWord word ∧ (∀ w ∈ rest, IsWord w) ∧ cs = word ++ rest.flatMap ('-' :: ·)

theorem worded_of_valid {cs : List Char} (h : Valid cs) : Worded cs := by
  induction h with
  | @single c hc => exact ⟨[c], [], ⟨by simp, by simpa using hc⟩, by simp, by simp⟩
  | @letter c cs hc _ ih =>
    obtain ⟨word, rest, ⟨-, hword⟩, hrest, rfl⟩ := ih
    exact ⟨c :: word, rest, ⟨by simp, List.forall_mem_cons.mpr ⟨hc, hword⟩⟩, hrest, rfl⟩
  | @hyphen c cs hc _ ih =>
    obtain ⟨word, rest, hword, hrest, rfl⟩ := ih
    refine ⟨[c], word :: rest, ⟨by simp, by simpa using hc⟩, ?_, by simp⟩
    exact List.forall_mem_cons.mpr ⟨hword, hrest⟩

theorem valid_of_words {word : List Char} {rest : List (List Char)} (hword : IsWord word)
    (hrest : ∀ w ∈ rest, IsWord w) : Valid (word ++ rest.flatMap ('-' :: ·)) := by
  induction rest generalizing word with
  | nil => simpa using valid_of_letters hword.1 hword.2
  | cons w rest ih =>
    obtain ⟨hw, hrest⟩ := List.forall_mem_cons.mp hrest
    exact (valid_of_letters hword.1 hword.2).append (ih hw hrest)

theorem valid_iff_worded {cs : List Char} : Valid cs ↔ Worded cs := by
  refine ⟨worded_of_valid, fun h => ?_⟩
  obtain ⟨word, rest, hword, hrest, rfl⟩ := h
  exact valid_of_words hword hrest

end Slug

/-- The slug of a name is what the stages make of it, whichever small sigma ends a word. It is
empty or made of words between hyphens. Those texts and no others are their own slugs, a number
behind a slug that is not empty makes another one, and each names a file without a way to any other
directory. -/
theorem slugify_staged (name : String) :
    slugify name = String.ofList (Slug.staged (Text.lowercase name.toList)) ∧
    (∀ lowered, Text.SigmaAlike (Text.lowercase name.toList) lowered →
      slugify name = String.ofList (Slug.staged lowered)) ∧
    (slugify name = "" ∨ Slug.Worded (slugify name).toList) ∧
    slugify (slugify name) = slugify name ∧
    (slugify name = name ↔ name = "" ∨ Slug.Worded name.toList) ∧
    Path.IsName (Artifact.fileNameOf (slugify name)) ∧
    (slugify name ≠ "" → ∀ n,
      Slug.Worded (numberedSlug (slugify name) n).toList ∧
        Path.IsName (Artifact.fileNameOf (numberedSlug (slugify name) n))) := by
  have hstaged : slugify name = String.ofList (Slug.staged (Text.lowercase name.toList)) :=
    congrArg String.ofList (Slug.ofChars_eq_staged name.toList)
  have hform : ∀ name, slugify name = "" ∨ Slug.Worded (slugify name).toList := by
    intro name
    by_cases hempty : slugify name = ""
    · exact Or.inl hempty
    · exact Or.inr (Slug.valid_iff_worded.mp (valid_slugify hempty))
  have hfixed : ∀ text, text = "" ∨ Slug.Worded text.toList → slugify text = text := by
    intro text htext
    rcases htext with rfl | hworded
    · rfl
    · exact slugify_of_valid (Slug.valid_iff_worded.mpr hworded)
  refine ⟨hstaged, fun lowered hsigma => ?_, hform name, hfixed _ (hform name), ⟨?_, hfixed name⟩,
    Slug.isName_of_letters fun c hc => mem_slugify hc, fun hne n => ?_⟩
  · rw [hstaged, Slug.staged_of_sigmaAlike hsigma]
  · intro heq
    have hname := hform name
    rwa [heq] at hname
  · have hvalid := valid_numberedSlug (valid_slugify hne) n
    exact ⟨Slug.valid_iff_worded.mp hvalid, hvalid.isName⟩

/-- The dotted I is two characters in small letters, the sigma is one at the end of a word, and the
sign for kelvin is a letter. -/
theorem slugify_staged_kelvin :
    Text.SigmaAlike (Text.lowercase "İΣ \u212A9".toList) "i\u0307ς k9".toList ∧
      slugify "İΣ \u212A9" = String.ofList (Slug.staged "i\u0307ς k9".toList) ∧
      slugify "İΣ \u212A9" = "i-k9" ∧
      Slug.Worded (numberedSlug "i-k9" 2).toList ∧
      Path.IsName (Artifact.fileNameOf (numberedSlug "i-k9" 2)) := by
  have hsigma : Text.SigmaAlike (Text.lowercase "İΣ \u212A9".toList) "i\u0307ς k9".toList := by
    decide +kernel
  have hslug : slugify "İΣ \u212A9" = "i-k9" := by decide +kernel
  obtain ⟨-, hsame, -, -, -, -, hnumbered⟩ := slugify_staged "İΣ \u212A9"
  have hnext := hnumbered (by rw [hslug]; decide) 2
  rw [hslug] at hnext
  exact ⟨hsigma, hsame _ hsigma, hslug, hnext⟩

end Agentry
