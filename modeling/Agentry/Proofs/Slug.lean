import Agentry.Slug
import Mathlib.Data.List.Basic
/-!
# What a slug is made of

A slug has nothing but slug letters and hyphens, and it does not end in a hyphen. So a slug with any
character at all has a letter. It is made of words with single hyphens between them: a text of that
form is its own slug, and so is a slug with a number behind it.
-/
namespace Agentry

namespace Slug

theorem mem_collapse {atBreak : Bool} {cs : List Char} {c : Char} (h : c ∈ collapse atBreak cs) :
    c ∈ cs := by
  induction cs generalizing atBreak with
  | nil => exact h
  | cons d cs ih =>
    rw [collapse] at h
    split at h
    · rename_i hd
      split at h
      · exact List.mem_cons_of_mem d (ih h)
      · rcases List.mem_cons.mp h with hc | hc
        · rw [hc, hd]
          exact List.mem_cons_self
        · exact List.mem_cons_of_mem d (ih hc)
    · rcases List.mem_cons.mp h with hc | hc
      · rw [hc]
        exact List.mem_cons_self
      · exact List.mem_cons_of_mem d (ih hc)

theorem mapped_eq_some {c d : Char} (h : mapped c = some d) : isSlugLetter d = true ∨ d = '-' := by
  simp only [mapped] at h
  split at h
  · rename_i hletter
    cases h
    exact Or.inl hletter
  · split at h
    · cases h
      exact Or.inr rfl
    · cases h

theorem mem_of_mem_dropTrailing {cs : List Char} {c : Char} (h : c ∈ dropTrailing cs) : c ∈ cs := by
  have hmem := (List.dropWhile_suffix (fun d => decide (d = '-')) (l := cs.reverse)).subset
    (List.mem_reverse.mp h)
  exact List.mem_reverse.mp hmem

theorem exists_ne_hyphen_of_dropTrailing {cs : List Char} (h : dropTrailing cs ≠ []) :
    ∃ c ∈ dropTrailing cs, c ≠ '-' := by
  have hne : cs.reverse.dropWhile (· = '-') ≠ [] := fun hnil => h (by simp [dropTrailing, hnil])
  have hhead := List.head_dropWhile_not (fun d => decide (d = '-')) hne
  refine ⟨_, List.mem_reverse.mpr (List.head_mem hne), ?_⟩
  simpa using hhead

theorem mem_ofChars {cs : List Char} {c : Char} (h : c ∈ ofChars cs) :
    isSlugLetter c = true ∨ c = '-' := by
  obtain ⟨d, -, hd⟩ := List.mem_filterMap.mp (mem_collapse (mem_of_mem_dropTrailing h))
  exact mapped_eq_some hd

theorem exists_letter_of_ofChars {cs : List Char} (h : ofChars cs ≠ []) :
    ∃ c ∈ ofChars cs, isSlugLetter c = true := by
  obtain ⟨c, hc, hne⟩ := exists_ne_hyphen_of_dropTrailing h
  exact ⟨c, hc, (mem_ofChars hc).resolve_right hne⟩

/-! ## Words and hyphens -/

/-- Words of letters and digits with single hyphens between them. -/
inductive Valid : List Char → Prop where
  | single {c : Char} : isSlugLetter c = true → Valid [c]
  | letter {c : Char} {cs : List Char} : isSlugLetter c = true → Valid cs → Valid (c :: cs)
  | hyphen {c : Char} {cs : List Char} : isSlugLetter c = true → Valid cs → Valid (c :: '-' :: cs)

theorem ne_hyphen_of_letter {c : Char} (h : isSlugLetter c = true) : c ≠ '-' := by
  rintro rfl
  exact absurd h (by decide)

theorem Valid.ne_nil {cs : List Char} (h : Valid cs) : cs ≠ [] := by
  cases h <;> simp

theorem Valid.mem {cs : List Char} (h : Valid cs) : ∀ c ∈ cs, isSlugLetter c = true ∨ c = '-' := by
  induction h with
  | single hc => simpa using Or.inl hc
  | letter hc _ ih =>
    simp only [List.forall_mem_cons]
    exact ⟨Or.inl hc, ih⟩
  | hyphen hc _ ih =>
    simp only [List.forall_mem_cons]
    exact ⟨Or.inl hc, Or.inr trivial, ih⟩

theorem Valid.append {cs ds : List Char} (hcs : Valid cs) (hds : Valid ds) :
    Valid (cs ++ '-' :: ds) := by
  induction hcs with
  | single hc => exact .hyphen hc hds
  | letter hc _ ih => exact .letter hc ih
  | hyphen hc _ ih => exact .hyphen hc ih

theorem valid_of_letters {cs : List Char} (hne : cs ≠ []) (h : ∀ c ∈ cs, isSlugLetter c = true) :
    Valid cs := by
  induction cs with
  | nil => exact absurd rfl hne
  | cons c cs ih =>
    obtain ⟨hc, hcs⟩ := List.forall_mem_cons.mp h
    cases cs with
    | nil => exact .single hc
    | cons d ds => exact .letter hc (ih (by simp) hcs)

theorem dropTrailing_cons (c : Char) (cs : List Char) :
    dropTrailing (c :: cs) =
      if dropTrailing cs = [] ∧ c = '-' then [] else c :: dropTrailing cs := by
  simp only [dropTrailing, List.reverse_cons, List.dropWhile_append]
  by_cases hnil : cs.reverse.dropWhile (· = '-') = []
  · by_cases hc : c = '-' <;> simp [hnil, hc]
  · simp [hnil]

/-- What is kept behind a letter is nothing, or a slug that a hyphen may lead. -/
theorem valid_of_collapse (cs : List Char) (h : ∀ c ∈ cs, isSlugLetter c = true ∨ c = '-') :
    (dropTrailing (collapse true cs) = [] ∨ Valid (dropTrailing (collapse true cs))) ∧
      (dropTrailing (collapse false cs) = [] ∨ Valid (dropTrailing (collapse false cs)) ∨
        ∃ ds, dropTrailing (collapse false cs) = '-' :: ds ∧ Valid ds) := by
  induction cs with
  | nil => exact ⟨Or.inl rfl, Or.inl rfl⟩
  | cons c cs ih =>
    obtain ⟨hc, hcs⟩ := List.forall_mem_cons.mp h
    obtain ⟨hbreak, hinside⟩ := ih hcs
    by_cases hhyphen : c = '-'
    · subst hhyphen
      simp only [collapse, if_true, Bool.false_eq_true, if_false, dropTrailing_cons, and_true]
      refine ⟨hbreak, ?_⟩
      rcases hbreak with hnil | hvalid
      · exact Or.inl (if_pos hnil)
      · rw [if_neg hvalid.ne_nil]
        exact Or.inr (Or.inr ⟨_, rfl, hvalid⟩)
    · have hletter := hc.resolve_right hhyphen
      have hvalid : Valid (c :: dropTrailing (collapse false cs)) := by
        rcases hinside with hnil | hvalid | ⟨ds, heq, hvalid⟩
        · rw [hnil]
          exact .single hletter
        · exact .letter hletter hvalid
        · rw [heq]
          exact .hyphen hletter hvalid
      simp only [collapse, hhyphen, if_false, dropTrailing_cons, and_false]
      exact ⟨Or.inr hvalid, Or.inr (Or.inl hvalid)⟩

theorem valid_ofChars {cs : List Char} (h : ofChars cs ≠ []) : Valid (ofChars cs) := by
  refine (valid_of_collapse _ fun c hc => ?_).1.resolve_left h
  obtain ⟨d, -, hd⟩ := List.mem_filterMap.mp hc
  exact mapped_eq_some hd

theorem Valid.collapse_eq {cs : List Char} (h : Valid cs) (atBreak : Bool) :
    collapse atBreak cs = cs := by
  induction h generalizing atBreak with
  | single hc => simp [collapse, ne_hyphen_of_letter hc]
  | letter hc _ ih => simp [collapse, ne_hyphen_of_letter hc, ih]
  | hyphen hc _ ih => simp [collapse, ne_hyphen_of_letter hc, ih]

theorem Valid.dropTrailing_eq {cs : List Char} (h : Valid cs) : dropTrailing cs = cs := by
  induction h with
  | single hc => simp [dropTrailing, ne_hyphen_of_letter hc]
  | letter hc _ ih => simp [dropTrailing_cons, ne_hyphen_of_letter hc, ih]
  | hyphen hc hcs ih => simp [dropTrailing_cons, ne_hyphen_of_letter hc, ih, hcs.ne_nil]

theorem lowercaseChar_of_slug {c : Char} (h : isSlugLetter c = true ∨ c = '-') :
    Text.lowercaseChar c = [c] := by
  have hrange : c.toNat < 128 ∧ ¬(65 ≤ c.toNat ∧ c.toNat ≤ 90) := by
    rcases h with h | rfl
    · simp only [isSlugLetter, Bool.or_eq_true, Bool.and_eq_true, decide_eq_true_eq] at h
      omega
    · decide
  simp only [Text.lowercaseChar, hrange.1, if_true, Bool.and_eq_true, decide_eq_true_eq, hrange.2,
    if_false]

theorem mapped_of_slug {c : Char} (h : isSlugLetter c = true ∨ c = '-') : mapped c = some c := by
  rcases h with h | rfl
  · simp [mapped, h]
  · decide

theorem Valid.ofChars_eq {cs : List Char} (h : Valid cs) : ofChars cs = cs := by
  have hlower : Text.lowercase cs = cs := by
    rw [Text.lowercase, List.flatMap_congr fun c hc => lowercaseChar_of_slug (h.mem c hc)]
    simp
  have hmapped : cs.filterMap mapped = cs := by
    rw [List.filterMap_congr fun c hc => mapped_of_slug (h.mem c hc)]
    simp
  rw [ofChars, hlower, hmapped, h.collapse_eq, h.dropTrailing_eq]

end Slug

theorem mem_slugify {name : String} {c : Char} (h : c ∈ (slugify name).toList) :
    isSlugLetter c = true ∨ c = '-' := by
  rw [slugify, String.toList_ofList] at h
  exact Slug.mem_ofChars h

theorem exists_letter_of_slugify {name : String} (h : slugify name ≠ "") :
    ∃ c ∈ (slugify name).toList, isSlugLetter c = true := by
  rw [slugify, String.toList_ofList]
  refine Slug.exists_letter_of_ofChars fun hnil => h ?_
  rw [slugify, hnil]

theorem valid_slugify {name : String} (h : slugify name ≠ "") :
    Slug.Valid (slugify name).toList := by
  rw [slugify, String.toList_ofList]
  refine Slug.valid_ofChars fun hnil => h ?_
  rw [slugify, hnil]

theorem slugify_of_valid {slug : String} (h : Slug.Valid slug.toList) : slugify slug = slug := by
  rw [slugify, h.ofChars_eq, String.ofList_toList]

theorem isSlugLetter_of_digit {c : Char} (h : c.isDigit = true) : isSlugLetter c = true := by
  simp only [Char.isDigit, Bool.and_eq_true, decide_eq_true_eq] at h
  simp only [isSlugLetter, Bool.or_eq_true, Bool.and_eq_true, decide_eq_true_eq]
  right
  exact ⟨h.1, h.2⟩

theorem digit_of_mem_number {n : Nat} {c : Char} (h : c ∈ (toString n).toList) :
    c.isDigit = true := by
  rw [Nat.toString_eq_repr, Nat.toList_repr] at h
  exact Nat.isDigit_of_mem_toDigits (by decide) (by decide) h

theorem toList_numberedSlug (base : String) (n : Nat) :
    (numberedSlug base n).toList = base.toList ++ '-' :: (toString n).toList := by
  simp [numberedSlug]

theorem valid_numberedSlug {base : String} (h : Slug.Valid base.toList) (n : Nat) :
    Slug.Valid (numberedSlug base n).toList := by
  rw [toList_numberedSlug]
  refine h.append (Slug.valid_of_letters ?_ fun c hc =>
    isSlugLetter_of_digit (digit_of_mem_number hc))
  rw [Nat.toString_eq_repr, Nat.toList_repr]
  exact Nat.toDigits_ne_nil

theorem numberedSlug_inj {base : String} {m n : Nat} :
    numberedSlug base m = numberedSlug base n ↔ m = n := by
  refine ⟨fun h => ?_, fun h => congrArg (numberedSlug base) h⟩
  rw [← String.toList_inj, toList_numberedSlug, toList_numberedSlug, List.append_cancel_left_eq,
    List.cons_inj_right, Nat.toString_eq_repr, Nat.toString_eq_repr, Nat.toList_repr,
    Nat.toList_repr] at h
  have hvalue := congrArg (Nat.ofDigitChars 10 · 0) h
  simpa only [Nat.ofDigitChars_ten_toDigits] using hvalue

theorem numberedSlug_ne (base : String) (n : Nat) : numberedSlug base n ≠ base := by
  intro h
  have hlength := congrArg (fun s : String => s.toList.length) h
  simp only [toList_numberedSlug, List.length_append, List.length_cons] at hlength
  omega

end Agentry
