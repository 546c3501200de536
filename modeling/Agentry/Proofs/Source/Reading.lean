import Agentry.Proofs.Source.Token
import Agentry.Proofs.Text
import Mathlib.Data.Bool.AllAny
/-!
# Reading tokens

What is read at the front of a text does not depend on what follows, once something does follow. So
a text is read piece by piece, and a fixed piece that ends in a blank or in a mark is read once and
for all, whatever stands behind it.
-/
namespace Agentry.Source

variable {cs rest after value : List Char}

/-! ## Locality -/

theorem dropWhile_append {p : Char → Bool} (h : cs.dropWhile p ≠ []) (more : List Char) :
    (cs ++ more).dropWhile p = cs.dropWhile p ++ more ∧
      (cs ++ more).takeWhile p = cs.takeWhile p := by
  induction cs with
  | nil => exact absurd rfl h
  | cons c cs ih =>
    by_cases hc : p c = true
    · simp only [List.dropWhile_cons_of_pos hc] at h
      simpa [hc] using ih h
    · simp [hc]

theorem startsWith_append {p : Char → Bool} (h : cs ≠ []) (more : List Char) :
    startsWith p (cs ++ more) = startsWith p cs := by
  obtain ⟨c, cs, rfl⟩ := List.exists_cons_of_ne_nil h
  rfl

theorem readBody_append {mode : Mode} (h : readBody mode cs = some (value, after))
    (more : List Char) : readBody mode (cs ++ more) = some (value, after ++ more) := by
  fun_induction readBody mode cs generalizing value with
  | case1 => cases h
  | case2 => cases h
  | case3 mode c rest hstep =>
    cases h
    simp [readBody, hstep]
  | case4 mode c rest out next hstep ih =>
    obtain ⟨⟨tail, after'⟩, hrest, heq⟩ := Option.map_eq_some_iff.mp h
    cases heq
    simp [readBody, hstep, ih hrest]

theorem length_of_readBody {mode : Mode} (h : readBody mode cs = some (value, after)) :
    after.length < cs.length := by
  fun_induction readBody mode cs generalizing value with
  | case1 => cases h
  | case2 => cases h
  | case3 mode c rest hstep =>
    cases h
    simp
  | case4 mode c rest out next hstep ih =>
    obtain ⟨⟨tail, after'⟩, hrest, heq⟩ := Option.map_eq_some_iff.mp h
    cases heq
    exact Nat.lt_succ_of_lt (ih hrest)

theorem exists_of_readRaw (h : readRaw cs = some (value, after)) :
    ∃ body, cs.dropWhile (· = '#') = '"' :: body ∧
      Text.cut ('"' :: cs.takeWhile (· = '#')) body = some (value, after) ∧
      (cs.takeWhile (· = '#')).length ≤ 255 ∧ '\r' ∉ value := by
  simp only [readRaw] at h
  split at h
  · rename_i body hbody
    split at h
    · rename_i value' after' hcut
      split at h
      · rename_i hlimit
        cases h
        have hboth : (cs.takeWhile (· = '#')).length ≤ 255 ∧ '\r' ∉ value := by
          simpa using hlimit
        exact ⟨body, hbody, hcut, hboth⟩
      · cases h
    · cases h
  · cases h

theorem readRaw_append (h : readRaw cs = some (value, after)) (more : List Char) :
    readRaw (cs ++ more) = some (value, after ++ more) := by
  obtain ⟨body, hbody, hcut, hlimit, hreturn⟩ := exists_of_readRaw h
  obtain ⟨hdrop, htake⟩ := dropWhile_append (show cs.dropWhile (· = '#') ≠ [] by simp [hbody]) more
  simp only [readRaw, hdrop, htake, hbody, List.cons_append, Text.cut_append hcut]
  simp [hlimit, hreturn]

theorem length_of_readRaw (h : readRaw cs = some (value, after)) : after.length < cs.length := by
  obtain ⟨body, hbody, hcut, -, -⟩ := exists_of_readRaw h
  have hdrop := (List.dropWhile_suffix (fun c => decide (c = '#')) (l := cs)).length_le
  have hafter := (Text.length_le_of_cut hcut).2
  rw [hbody, List.length_cons] at hdrop
  omega

theorem exists_of_asLiteral {read : Option (List Char × List Char)} {t : Option Token}
    {mid : List Char} (h : asLiteral cs read = some (t, mid)) :
    ∃ value, read = some (value, mid) ∧ startsWith isWordChar mid = false ∧
      t = some (.literal (cs.take (cs.length - mid.length)) value) := by
  cases read with
  | none => cases h
  | some pair =>
    obtain ⟨value, after⟩ := pair
    simp only [asLiteral] at h
    split at h
    · cases h
    · rename_i hword
      cases h
      exact ⟨value, rfl, by simpa using hword, rfl⟩

theorem asLiteral_append {mid : List Char} (hmid : mid ≠ [])
    (hword : startsWith isWordChar mid = false) (more : List Char) :
    asLiteral (cs ++ more) (some (value, mid ++ more)) =
      some (some (.literal (cs.take (cs.length - mid.length)) value), mid ++ more) := by
  have hlength : (cs ++ more).length - (mid ++ more).length = cs.length - mid.length := by
    simp only [List.length_append]
    omega
  simp only [asLiteral, startsWith_append hmid, hword, hlength,
    List.take_append_of_le_length (Nat.sub_le cs.length mid.length)]
  rfl

theorem exists_of_readWord {t : Option Token} {mid : List Char}
    (h : readWord cs = some (t, mid)) :
    mid = cs.dropWhile isWordChar ∧ t = some (.word (cs.takeWhile isWordChar)) ∧
      startsWith (fun c => c = '"' || c = '\'' || c = '#') mid = false := by
  simp only [readWord] at h
  split at h
  · cases h
  · rename_i htouch
    cases h
    exact ⟨rfl, rfl, by simpa using htouch⟩

theorem opensRaw_append {t : Option Token} {mid : List Char}
    (h : readWord ('r' :: cs) = some (t, mid)) (hmid : mid ≠ []) (more : List Char) :
    opensRaw (cs ++ more) = opensRaw cs := by
  obtain ⟨hdrop, -, htouch⟩ := exists_of_readWord h
  have hr : isWordChar 'r' = true := by decide
  have hhash : isWordChar '#' = false := by decide
  rw [List.dropWhile_cons_of_pos hr] at hdrop
  -- A text of hashes alone could become a raw literal, but it would touch the word.
  have hend : cs.dropWhile (· = '#') ≠ [] := by
    intro hall
    cases cs with
    | nil => exact hmid hdrop
    | cons c cs =>
      by_cases hc : c = '#'
      · subst hc
        rw [List.dropWhile_cons_of_neg (by simp [hhash])] at hdrop
        rw [hdrop] at htouch
        cases htouch
      · simp [hc] at hall
  rw [opensRaw, (dropWhile_append hend more).1, startsWith_append hend]
  rfl

/-- What is read is settled as soon as something is left behind it. -/
theorem next_append {t : Option Token} {mid : List Char} (h : next cs = some (t, mid))
    (hmid : mid ≠ []) (more : List Char) : next (cs ++ more) = some (t, mid ++ more) := by
  cases cs with
  | nil => cases h
  | cons c rest =>
    simp only [next] at h
    rw [List.cons_append, next]
    split at h
    · rename_i hblank
      cases h
      rw [if_pos hblank]
    rename_i hblank
    rw [if_neg hblank]
    split at h
    · rename_i hslash
      rw [if_pos hslash]
      split at h
      · rename_i hcomment
        cases h
        have hne : rest ≠ [] := by
          rintro rfl
          cases hcomment
        rw [startsWith_append hne, if_pos hcomment, (dropWhile_append hmid more).1]
      · cases h
    rename_i hslash
    rw [if_neg hslash]
    split at h
    · rename_i hquote
      rw [if_pos hquote]
      obtain ⟨value, hread, hword, rfl⟩ := exists_of_asLiteral h
      rw [readBody_append hread, ← List.cons_append]
      exact asLiteral_append hmid hword more
    rename_i hquote
    rw [if_neg hquote]
    split at h
    · rename_i hraw
      obtain ⟨rfl, hopens⟩ : c = 'r' ∧ opensRaw rest = true := by simpa using hraw
      obtain ⟨value, hread, hword, rfl⟩ := exists_of_asLiteral h
      have hend : rest.dropWhile (· = '#') ≠ [] := by
        intro hall
        rw [opensRaw, hall] at hopens
        cases hopens
      have hopens' : opensRaw (rest ++ more) = true := by
        rw [opensRaw, (dropWhile_append hend more).1, startsWith_append hend]
        exact hopens
      rw [if_pos (by simpa using hopens'), readRaw_append hread, ← List.cons_append]
      exact asLiteral_append hmid hword more
    rename_i hraw
    split at h
    · rename_i hstart
      have hraw' : ¬ (decide (c = 'r') && opensRaw (rest ++ more)) = true := by
        by_cases hc : c = 'r'
        · subst hc
          rwa [opensRaw_append h hmid]
        · simp [hc]
      rw [if_neg hraw', if_pos hstart]
      obtain ⟨rfl, rfl, htouch⟩ := exists_of_readWord h
      obtain ⟨hdrop, htake⟩ := dropWhile_append hmid more
      simp only [readWord, ← List.cons_append, hdrop, htake, startsWith_append hmid, htouch]
      rfl
    rename_i hstart
    split at h
    · rename_i hmark
      cases h
      have hc : c ≠ 'r' := by
        rintro rfl
        exact absurd hmark (by decide)
      rw [if_neg (by simp [hc]), if_neg hstart, if_pos hmark]
    · cases h

theorem length_of_next {t : Option Token} {mid : List Char} (h : next cs = some (t, mid)) :
    mid.length < cs.length := by
  cases cs with
  | nil => cases h
  | cons c rest =>
    have hdrop : ∀ p : Char → Bool, (rest.dropWhile p).length < rest.length + 1 := fun p =>
      Nat.lt_succ_of_le (List.dropWhile_suffix p).length_le
    simp only [next] at h
    rw [List.length_cons]
    split at h
    · cases h
      exact Nat.lt_succ_self _
    split at h
    · split at h
      · cases h
        exact hdrop _
      · cases h
    split at h
    · obtain ⟨value, hread, -, -⟩ := exists_of_asLiteral h
      exact Nat.lt_succ_of_lt (length_of_readBody hread)
    split at h
    · obtain ⟨value, hread, -, -⟩ := exists_of_asLiteral h
      exact Nat.lt_succ_of_lt (length_of_readRaw hread)
    split at h
    · rename_i hstart
      obtain ⟨rfl, -, -⟩ := exists_of_readWord h
      have hword : isWordChar c = true := by
        simp only [isWordStart, isWordChar, Bool.or_eq_true, Char.isAlphanum] at hstart ⊢
        exact hstart.imp_left Or.inl
      rw [List.dropWhile_cons_of_pos hword]
      exact hdrop _
    split at h
    · cases h
      exact Nat.lt_succ_self _
    · cases h

/-! ## Texts read piece by piece -/

/-- The tokens of the front of a text, up to what is left of it. -/
inductive Reads : List Char → List Token → List Char → Prop where
  | done {cs : List Char} : Reads cs [] cs
  | next {cs mid rest : List Char} {t : Option Token} {ts : List Token} :
    next cs = some (t, mid) → Reads mid ts rest → Reads cs (t.toList ++ ts) rest

theorem Reads.trans {mid : List Char} {ts us : List Token} (h : Reads cs ts mid)
    (h' : Reads mid us rest) : Reads cs (ts ++ us) rest := by
  induction h with
  | done => exact h'
  | next hnext _ ih =>
    rw [List.append_assoc]
    exact .next hnext (ih h')

theorem tokensWithin_of_reads {ts : List Token} (h : Reads cs ts []) {fuel : Nat}
    (hfuel : cs.length ≤ fuel) : tokensWithin fuel cs = some ts := by
  -- The end of the text is an index of the relation.
  generalize hend : ([] : List Char) = last at h
  induction h generalizing fuel with
  | done =>
    subst hend
    simp [tokensWithin]
  | @next cs mid rest t ts hnext _ ih =>
    have hlength := length_of_next hnext
    obtain ⟨fuel, rfl⟩ : ∃ n, fuel = n + 1 := ⟨fuel - 1, by omega⟩
    have hmore := ih (show mid.length ≤ fuel by omega) hend
    cases cs with
    | nil => cases hnext
    | cons c cs => simp [tokensWithin, hnext, hmore]

theorem tokens_of_reads {ts : List Token} (h : Reads cs ts []) : tokens cs = some ts :=
  tokensWithin_of_reads h (Nat.le_refl _)

/-! ## Pieces that end in a blank or in a mark -/

/-- What a character is that stands for itself, whatever follows it. -/
def separator? (c : Char) : Option (Option Token) :=
  if isBlank c then some none else if isMark c then some (some (.mark c)) else none

theorem next_separator {c : Char} {t : Option Token} (h : separator? c = some t)
    (rest : List Char) : next (c :: rest) = some (t, rest) := by
  simp only [separator?] at h
  split at h
  · rename_i hblank
    cases h
    rw [next, if_pos hblank]
  rename_i hblank
  split at h
  · rename_i hmark
    cases h
    have hother : ∀ d : Char, isMark d = false → c ≠ d := by
      rintro d hd rfl
      rw [hd] at hmark
      cases hmark
    have hstart : isWordStart c = false := by
      have hall : ∀ d ∈ marks, isWordStart d = false :=
        List.all_iff_forall_prop.mp (by decide)
      exact hall c (List.contains_iff_mem.mp hmark)
    rw [next, if_neg hblank, if_neg (hother '/' (by decide)), if_neg (hother '"' (by decide)),
      if_neg (by simp [hother 'r' (by decide)]), if_neg (by simp [hstart]), if_pos hmark]
  · cases h

/-- The tokens of a piece whose last character stands for itself. -/
def piece : Nat → List Char → Option (List Token)
  | _, [] => none
  | _, [c] => (separator? c).map Option.toList
  | 0, _ => none
  | fuel + 1, cs => do
    let (token, rest) ← next cs
    let more ← piece fuel rest
    return token.toList ++ more

theorem reads_piece {fuel : Nat} {ts : List Token} (h : piece fuel cs = some ts)
    (rest : List Char) : Reads (cs ++ rest) ts rest := by
  fun_induction piece fuel cs generalizing ts with
  | case1 => cases h
  | case2 fuel c =>
    obtain ⟨t, ht, rfl⟩ := Option.map_eq_some_iff.mp h
    rw [← List.append_nil t.toList]
    exact .next (next_separator ht rest) .done
  | case3 => cases h
  | case4 fuel cs _ _ ih =>
    obtain ⟨⟨t, mid⟩, hnext, hrest⟩ := Option.bind_eq_some_iff.mp h
    obtain ⟨more, hmore, heq⟩ := Option.bind_eq_some_iff.mp hrest
    cases heq
    have hmid : mid ≠ [] := by
      rintro rfl
      simp [piece] at hmore
    exact .next (next_append hnext hmid rest) (ih mid hmore)

theorem next_comment {line : List Char} (h : '\n' ∉ line) (rest : List Char) :
    next ('/' :: '/' :: (line ++ '\n' :: rest)) = some (none, '\n' :: rest) := by
  have hline : ∀ c ∈ line, decide (c ≠ '\n') = true := by
    intro c hc
    simp only [ne_eq, decide_eq_true_eq]
    rintro rfl
    exact h hc
  have hslash : ∀ cs : List Char, startsWith (· = '/') ('/' :: cs) = true := fun _ => rfl
  rw [next, if_neg (by decide), if_pos rfl, hslash, if_pos rfl,
    List.dropWhile_cons_of_pos (by decide), List.dropWhile_append_of_pos hline,
    List.dropWhile_cons_of_neg (by decide)]

theorem ends_of_separator? {c : Char} (h : (separator? c).isSome = true) :
    isWordChar c = false ∧ c ≠ '"' ∧ c ≠ '\'' := by
  have hall : ∀ d ∈ [' ', '\n', '\t'] ++ marks, isWordChar d = false ∧ d ≠ '"' ∧ d ≠ '\'' :=
    List.all_iff_forall_prop.mp (by decide)
  apply hall
  simp only [separator?] at h
  split at h
  · rename_i hblank
    simp only [isBlank, Bool.or_eq_true, decide_eq_true_eq] at hblank
    rcases hblank with (rfl | rfl) | rfl <;> decide
  split at h
  · rename_i hmark
    exact List.mem_append_right [' ', '\n', '\t'] (List.contains_iff_mem.mp hmark)
  · cases h

theorem next_word {c d : Char} {word : List Char} (hstart : isWordStart c = true)
    (hword : ∀ x ∈ c :: word, isWordChar x = true) (hd : (separator? d).isSome = true)
    (hhash : d ≠ '#') (rest : List Char) :
    next (c :: word ++ d :: rest) = some (some (.word (c :: word)), d :: rest) := by
  obtain ⟨hend, hquote, hprime⟩ := ends_of_separator? hd
  have hother : ∀ x : Char, isWordStart x = false → c ≠ x := by
    rintro x hx rfl
    rw [hx] at hstart
    cases hstart
  have hblank : isBlank c = false := by
    simp only [isBlank, Bool.or_eq_false_iff, decide_eq_false_iff_not]
    exact ⟨⟨hother ' ' (by decide), hother '\n' (by decide)⟩, hother '\t' (by decide)⟩
  have hopens : opensRaw (word ++ d :: rest) = false := by
    cases word with
    | nil => simp [opensRaw, startsWith, hquote, hhash]
    | cons x word =>
      have hx : isWordChar x = true := hword x (by simp)
      have hne : x ≠ '#' ∧ x ≠ '"' := by
        constructor <;> rintro rfl <;> exact absurd hx (by decide)
      simp [opensRaw, startsWith, hne.1, hne.2]
  have hdrop : (c :: word ++ d :: rest).dropWhile isWordChar = d :: rest := by
    rw [List.dropWhile_append_of_pos hword, List.dropWhile_cons_of_neg (by simp [hend])]
  have htake : (c :: word ++ d :: rest).takeWhile isWordChar = c :: word := by
    rw [List.takeWhile_append_of_pos hword, List.takeWhile_cons_of_neg (by simp [hend]),
      List.append_nil]
  have hread : readWord (c :: word ++ d :: rest) = some (some (.word (c :: word)), d :: rest) := by
    simp only [readWord, hdrop, htake]
    simp [startsWith, hquote, hprime, hhash]
  rw [← hread, List.cons_append, next, if_neg (by simp [hblank]), if_neg (hother '/' (by decide)),
    if_neg (hother '"' (by decide)), if_neg (by simp [hopens]), if_pos hstart]

end Agentry.Source
