import Agentry.Text.Blank
import Agentry.Text.Search
/-!
# Texts cut and split

What a cut or a split of a text finds does not depend on what follows the place where it ends.
-/
namespace Agentry.Text

/-! ## Cutting -/

theorem contains_cons (pattern : List Char) (c : Char) (cs : List Char) :
    contains pattern (c :: cs) = (pattern.isPrefixOf (c :: cs) || contains pattern cs) := by
  simp only [contains, cut]
  split
  · rename_i h
    simp [h]
  · rename_i h
    simp [h]

theorem contains_iff_infix {pattern cs : List Char} :
    contains pattern cs = true ↔ pattern <:+: cs := by
  induction cs with
  | nil => simp [contains, cut]
  | cons c cs ih =>
    rw [contains_cons, Bool.or_eq_true, ih, List.isPrefixOf_iff_prefix, List.infix_cons_iff]

theorem isPrefixOf_append {pattern cs : List Char} (h : pattern.length ≤ cs.length)
    (rest : List Char) : pattern.isPrefixOf (cs ++ rest) = pattern.isPrefixOf cs := by
  rw [Bool.eq_iff_iff, List.isPrefixOf_iff_prefix, List.isPrefixOf_iff_prefix]
  refine ⟨fun hp => ?_, fun hp => hp.trans (List.prefix_append cs rest)⟩
  exact List.prefix_of_prefix_length_le hp (List.prefix_append cs rest) h

theorem length_le_of_cut {pattern cs before after : List Char}
    (h : cut pattern cs = some (before, after)) :
    pattern.length ≤ cs.length ∧ after.length ≤ cs.length := by
  have hlength := congrArg List.length (eq_of_cut h)
  simp only [List.length_append] at hlength
  omega

/-- The first occurrence of a pattern stays the first one in a longer text. -/
theorem cut_append {pattern cs before after : List Char} (h : cut pattern cs = some (before, after))
    (rest : List Char) : cut pattern (cs ++ rest) = some (before, after ++ rest) := by
  induction cs generalizing before after with
  | nil =>
    simp only [cut] at h
    split at h
    · rename_i hempty
      obtain rfl : pattern = [] := by simpa using hempty
      cases h
      cases rest <;> simp [cut]
    · cases h
  | cons c cs ih =>
    have hle := (length_le_of_cut h).1
    rw [cut] at h
    rw [List.cons_append, cut, ← List.cons_append, isPrefixOf_append hle]
    split at h
    · rename_i hp
      cases h
      rw [if_pos hp, List.drop_append_of_le_length hle]
    · rename_i hp
      obtain ⟨⟨front, tail⟩, hcut, heq⟩ := Option.map_eq_some_iff.mp h
      cases heq
      rw [if_neg hp, ih hcut]
      rfl

/-- Where a pattern stands for the first time. -/
def FirstAt (pattern cs : List Char) (k : Nat) : Prop :=
  pattern <+: cs.drop k ∧ ∀ j < k, ¬ pattern <+: cs.drop j

theorem firstAt_zero {pattern cs : List Char} : FirstAt pattern cs 0 ↔ pattern <+: cs := by
  simp [FirstAt]

theorem firstAt_succ {pattern cs : List Char} {c : Char} {k : Nat} :
    FirstAt pattern (c :: cs) (k + 1) ↔ ¬ pattern <+: c :: cs ∧ FirstAt pattern cs k := by
  simp only [FirstAt, List.drop_succ_cons, Nat.forall_lt_succ_left, List.drop_zero]
  exact and_left_comm

/-- A text is cut where the pattern stands first. -/
theorem firstAt_of_cut {pattern cs before after : List Char}
    (h : cut pattern cs = some (before, after)) : FirstAt pattern cs before.length := by
  induction cs generalizing before with
  | nil =>
    rw [cut] at h
    split at h
    · rename_i hempty
      cases h
      rw [List.isEmpty_iff.mp hempty]
      exact firstAt_zero.mpr List.nil_prefix
    · cases h
  | cons c cs ih =>
    rw [cut] at h
    split at h
    · rename_i hp
      cases h
      exact firstAt_zero.mpr (List.isPrefixOf_iff_prefix.mp hp)
    · rename_i hp
      obtain ⟨⟨front, rest⟩, hcut, heq⟩ := Option.map_eq_some_iff.mp h
      cases heq
      exact firstAt_succ.mpr ⟨mt List.isPrefixOf_iff_prefix.mpr hp, ih hcut⟩

/-- A text is cut at the first occurrence of a character. -/
theorem cut_char {c : Char} {front : List Char} (h : c ∉ front) (rest : List Char) :
    cut [c] (front ++ c :: rest) = some (front, rest) := by
  induction front with
  | nil => simp [cut]
  | cons d front ih =>
    obtain ⟨hd, hfront⟩ := not_or.mp (mt List.mem_cons.mpr h)
    rw [List.cons_append, cut, ih hfront]
    simp [hd]

theorem cut_char_eq_none {c : Char} {cs : List Char} (h : c ∉ cs) : cut [c] cs = none := by
  induction cs with
  | nil => rfl
  | cons d cs ih =>
    obtain ⟨hd, hcs⟩ := not_or.mp (mt List.mem_cons.mpr h)
    rw [cut, ih hcs]
    simp [hd]

/-! ## Pieces and lines -/

/-- The pieces of a text hold every character but the separators. -/
theorem flatten_splitOn (sep : Char) (cs : List Char) :
    (splitOn sep cs).flatten = cs.filter (· ≠ sep) := by
  induction cs with
  | nil => rfl
  | cons c cs ih =>
    obtain ⟨piece, pieces, heq⟩ := List.exists_cons_of_ne_nil (splitOn_ne_nil sep cs)
    rw [heq] at ih
    by_cases hc : c = sep
    · simp [splitOn, heq, hc] at ih ⊢
      exact ih
    · simp [splitOn, heq, hc] at ih ⊢
      exact ih

theorem splitOn_of_not_mem {sep : Char} {cs : List Char} (h : sep ∉ cs) :
    splitOn sep cs = [cs] := by
  induction cs with
  | nil => rfl
  | cons c cs ih =>
    obtain ⟨hc, hcs⟩ := not_or.mp (mt List.mem_cons.mpr h)
    rw [splitOn, ih hcs]
    simp [Ne.symm hc]

theorem splitOn_cons_self (sep : Char) (cs : List Char) :
    splitOn sep (sep :: cs) = [] :: splitOn sep cs := by
  obtain ⟨piece, pieces, heq⟩ := List.exists_cons_of_ne_nil (splitOn_ne_nil sep cs)
  simp [splitOn, heq]

/-- A separator parts the pieces on its two sides. -/
theorem splitOn_append_cons (sep : Char) (front rest : List Char) :
    splitOn sep (front ++ sep :: rest) = splitOn sep front ++ splitOn sep rest := by
  induction front with
  | nil => exact splitOn_cons_self sep rest
  | cons c front ih =>
    obtain ⟨piece, pieces, heq⟩ := List.exists_cons_of_ne_nil (splitOn_ne_nil sep front)
    rw [heq] at ih
    by_cases hc : c = sep
    · simp [splitOn, heq, ih, hc]
    · simp [splitOn, heq, ih, hc]

theorem splitOn_append {sep : Char} {piece : List Char} (h : sep ∉ piece) (rest : List Char) :
    splitOn sep (piece ++ sep :: rest) = piece :: splitOn sep rest := by
  rw [splitOn_append_cons, splitOn_of_not_mem h, List.singleton_append]

theorem lines_append {line : List Char} (h : '\n' ∉ line) (rest : List Char) :
    lines (line ++ '\n' :: rest) = endedLine line :: lines rest := by
  obtain ⟨piece, pieces, heq⟩ := List.exists_cons_of_ne_nil (splitOn_ne_nil '\n' rest)
  have hlast : (line :: piece :: pieces).getLast? = (piece :: pieces).getLast? := by
    simp [List.getLast?_cons]
  simp only [lines, splitOn_append h, heq, List.dropLast_cons_cons, List.map_cons, hlast]
  split <;> rfl

theorem endedLine_of_not_mem {line : List Char} (h : '\r' ∉ line) : endedLine line = line := by
  have hlast : line.getLast? ≠ some '\r' := fun he => h (List.mem_of_getLast? he)
  rw [endedLine, if_neg hlast]

/-- What holds of a line with and without its carriage return, and of an empty one, holds of all
lines when it holds of all pieces. -/
theorem forall_mem_lines {P : List Char → Prop} (hended : ∀ line, P (endedLine line) ↔ P line)
    (hnil : P []) (cs : List Char) :
    (∀ line ∈ lines cs, P line) ↔ ∀ piece ∈ splitOn '\n' cs, P piece := by
  obtain ⟨front, last, hsplit⟩ : ∃ front last, splitOn '\n' cs = front ++ [last] :=
    ⟨_, _, (List.dropLast_concat_getLast (splitOn_ne_nil '\n' cs)).symm⟩
  have hmap : (∀ line ∈ front.map endedLine, P line) ↔ ∀ piece ∈ front, P piece := by
    simp [hended]
  rw [lines, hsplit, List.dropLast_concat, List.getLast?_concat, List.forall_mem_append]
  cases last with
  | nil => simp [hended, hnil]
  | cons c last => simp only [List.forall_mem_append, hmap]

theorem trimLeft_concat (cs : List Char) {c : Char} (hc : isBlank c = true) :
    trimLeft (cs ++ [c]) = if trimLeft cs = [] then [] else trimLeft cs ++ [c] := by
  have hlast : [c].dropWhile isBlank = [] := by simp [hc]
  by_cases hnil : cs.dropWhile isBlank = []
  · rw [trimLeft, trimLeft, List.dropWhile_append, if_pos (by simp [hnil]), if_pos hnil, hlast]
  · rw [trimLeft, trimLeft, List.dropWhile_append, if_neg (by simpa using hnil), if_neg hnil]

/-- Trimming takes nothing away but blanks. -/
theorem mem_trimChars_iff {c : Char} (hc : isBlank c = false) {cs : List Char} :
    c ∈ trimChars cs ↔ c ∈ cs := by
  have hdrop : ∀ ds : List Char, c ∈ ds.dropWhile isBlank ↔ c ∈ ds := by
    intro ds
    refine ⟨fun h => (List.dropWhile_sublist _).subset h, fun h => ?_⟩
    have hblank : ∀ d ∈ ds.takeWhile isBlank, isBlank d = true :=
      List.all_eq_true.mp List.all_takeWhile
    rw [← ds.takeWhile_append_dropWhile] at h
    rcases List.mem_append.mp h with hfront | hrest
    · rw [hblank c hfront] at hc
      cases hc
    · exact hrest
  rw [trimChars, trimRight, List.mem_reverse, hdrop, List.mem_reverse, trimLeft, hdrop]

theorem isBlank_of_visible {c : Char} (hlow : 0x20 < c.toNat) (hhigh : c.toNat < 0x7f) :
    isBlank c = false := by
  simp only [isBlank, Bool.or_eq_false_iff, Bool.and_eq_false_iff, decide_eq_false_iff_not,
    beq_eq_false_iff_ne]
  omega

theorem trimChars_of_not_blank {cs : List Char} (h : ∀ c ∈ cs, isBlank c = false) :
    trimChars cs = cs := by
  have hkeep : ∀ ds : List Char, (∀ c ∈ ds, isBlank c = false) → ds.dropWhile isBlank = ds := by
    intro ds hds
    cases ds with
    | nil => rfl
    | cons d ds => simp [hds d List.mem_cons_self]
  rw [trimChars, trimLeft, hkeep cs h, trimRight, hkeep _ (by simpa using h), List.reverse_reverse]

theorem trimChars_of_ends {c d : Char} (hc : isBlank c = false) (hd : isBlank d = false)
    (cs : List Char) : trimChars (c :: (cs ++ [d])) = c :: (cs ++ [d]) := by
  rw [trimChars, trimLeft_of_not_blank hc, trimRight]
  simp [hd]

theorem dropWhile_blank_of_head {cs : List Char} (h : ∀ c, cs.head? = some c → isBlank c = false) :
    cs.dropWhile isBlank = cs := by
  cases cs with
  | nil => rfl
  | cons c cs => simp [h c rfl]

theorem trimChars_of_not_blank_ends {cs : List Char}
    (h : ∀ c, cs.head? = some c ∨ cs.getLast? = some c → isBlank c = false) :
    trimChars cs = cs := by
  have hright : cs.reverse.dropWhile isBlank = cs.reverse := by
    refine dropWhile_blank_of_head fun c hc => h c (Or.inr ?_)
    rwa [List.head?_reverse] at hc
  rw [trimChars, trimLeft, dropWhile_blank_of_head fun c hc => h c (Or.inl hc), trimRight, hright,
    List.reverse_reverse]

/-- Trimming does not see blanks around a text. -/
theorem trimChars_around {before after : List Char} (hbefore : ∀ c ∈ before, isBlank c = true)
    (hafter : ∀ c ∈ after, isBlank c = true) (cs : List Char) :
    trimChars (before ++ (cs ++ after)) = trimChars cs := by
  have hright : ∀ ds : List Char, trimRight (ds ++ after) = trimRight ds := by
    intro ds
    rw [trimRight, List.reverse_append, List.dropWhile_append_of_pos (by simpa using hafter),
      trimRight]
  have hnil : after.dropWhile isBlank = [] := by
    rw [← List.append_nil after, List.dropWhile_append_of_pos hafter, List.dropWhile_nil]
  rw [trimChars, trimLeft, List.dropWhile_append_of_pos hbefore, List.dropWhile_append]
  split
  · rename_i hempty
    rw [trimChars, trimLeft, hnil, List.isEmpty_iff.mp hempty]
  · rw [hright, trimChars, trimLeft]

/-- A text and what is left of it without the blanks around it. -/
def Trimmed (cs core : List Char) : Prop :=
  ∃ before after, cs = before ++ (core ++ after) ∧ (∀ c ∈ before, isBlank c = true) ∧
    (∀ c ∈ after, isBlank c = true) ∧
    ∀ c, core.head? = some c ∨ core.getLast? = some c → isBlank c = false

theorem trimmed_trimChars (cs : List Char) : Trimmed cs (trimChars cs) := by
  have hblank : ∀ ds : List Char, ∀ c ∈ ds.takeWhile isBlank, isBlank c = true :=
    fun ds => List.all_eq_true.mp List.all_takeWhile
  have hhead : ∀ ds : List Char, ∀ c, (ds.dropWhile isBlank).head? = some c →
      isBlank c = false := by
    intro ds c hc
    have hnot := List.head?_dropWhile_not isBlank ds
    rwa [hc] at hnot
  have hleft : trimLeft cs =
      trimChars cs ++ ((trimLeft cs).reverse.takeWhile isBlank).reverse := by
    rw [trimChars, trimRight, ← List.reverse_append, List.takeWhile_append_dropWhile,
      List.reverse_reverse]
  refine ⟨cs.takeWhile isBlank, ((trimLeft cs).reverse.takeWhile isBlank).reverse, ?_,
    hblank cs, ?_, ?_⟩
  · rw [← hleft, trimLeft, List.takeWhile_append_dropWhile]
  · intro c hc
    exact hblank _ c (List.mem_reverse.mp hc)
  · rintro c (hc | hc)
    · refine hhead cs c ?_
      rw [← trimLeft, hleft, List.head?_append, hc]
      rfl
    · rw [trimChars, trimRight, List.getLast?_reverse] at hc
      exact hhead _ c hc

theorem trimmed_iff {cs core : List Char} : Trimmed cs core ↔ core = trimChars cs := by
  constructor
  · rintro ⟨before, after, rfl, hbefore, hafter, hends⟩
    rw [trimChars_around hbefore hafter, trimChars_of_not_blank_ends hends]
  · rintro rfl
    exact trimmed_trimChars cs

end Agentry.Text
