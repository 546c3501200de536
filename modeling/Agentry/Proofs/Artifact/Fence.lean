import Agentry.Artifact.Label
import Agentry.Artifact.Literal
import Agentry.Proofs.Text
/-!
# Fences of raw literals

A raw literal ends at its first quote with a whole fence behind it. The fence that is chosen for a
text is one hash longer than any run of hashes behind a quote of the text, so the first such place
is the end of the literal, also where the text ends in a quote and some hashes.
-/
namespace Agentry

namespace Literal

theorem hashes_succ (n : Nat) : hashes (n + 1) = '#' :: hashes n := rfl

theorem mem_hashes {n : Nat} {c : Char} (h : c ∈ hashes n) : c = '#' :=
  (List.mem_replicate.mp h).2

theorem hashes_prefix_of_le {m n : Nat} {cs : List Char} (h : m ≤ n) (hn : hashes n <+: cs) :
    hashes m <+: cs := by
  refine List.IsPrefix.trans ⟨hashes (n - m), ?_⟩ hn
  rw [hashes, hashes, hashes, List.replicate_append_replicate]
  congr 1
  omega

theorem hashes_prefix_cons {n : Nat} {c : Char} {cs : List Char} :
    hashes (n + 1) <+: c :: cs ↔ c = '#' ∧ hashes n <+: cs := by
  rw [hashes_succ, List.cons_prefix_cons]
  constructor
  · rintro ⟨rfl, h⟩
    exact ⟨rfl, h⟩
  · rintro ⟨rfl, h⟩
    exact ⟨rfl, h⟩

theorem hashes_prefix_of_append {n : Nat} {cs rest : List Char}
    (h : hashes n <+: cs ++ '"' :: rest) : hashes n <+: cs := by
  induction n generalizing cs with
  | zero => exact List.nil_prefix
  | succ n ih =>
    cases cs with
    | nil =>
      rw [List.nil_append, hashes_prefix_cons] at h
      exact absurd h.1 (by decide)
    | cons c cs =>
      rw [List.cons_append, hashes_prefix_cons] at h
      exact hashes_prefix_cons.mpr ⟨h.1, ih h.2⟩

def closing (n : Nat) : List Char := '"' :: hashes n

theorem closing_prefix_cons {n : Nat} {c : Char} {cs : List Char} :
    (closing n).isPrefixOf (c :: cs) = true ↔ c = '"' ∧ hashes n <+: cs := by
  rw [List.isPrefixOf_iff_prefix, closing, List.cons_prefix_cons]
  constructor
  · rintro ⟨rfl, h⟩
    exact ⟨rfl, h⟩
  · rintro ⟨rfl, h⟩
    exact ⟨rfl, h⟩

/-- The first closing fence behind a text without one is the fence that was put there. -/
theorem cut_closing {n : Nat} {cs : List Char} (h : Text.contains (closing n) cs = false)
    (rest : List Char) : Text.cut (closing n) (cs ++ (closing n ++ rest)) = some (cs, rest) := by
  induction cs with
  | nil =>
    have hprefix : (closing n).isPrefixOf (closing n ++ rest) = true :=
      List.isPrefixOf_iff_prefix.mpr (List.prefix_append _ _)
    rw [List.nil_append]
    simp only [closing, List.cons_append] at hprefix ⊢
    rw [Text.cut, if_pos hprefix]
    simp
  | cons c cs ih =>
    rw [Text.contains_cons, Bool.or_eq_false_iff] at h
    have hno : ¬ (closing n).isPrefixOf (c :: (cs ++ (closing n ++ rest))) = true := by
      intro hyes
      obtain ⟨hc, hrun⟩ := closing_prefix_cons.mp hyes
      have hrun' : hashes n <+: cs := hashes_prefix_of_append hrun
      rw [closing_prefix_cons.mpr ⟨hc, hrun'⟩] at h
      cases h.1
    rw [List.cons_append, Text.cut, if_neg hno, ih h.2]
    rfl

/-! ## The chosen fence -/

theorem longestRun_quote (run : Option Nat) (cs : List Char) :
    longestRun run ('"' :: cs) = longestRun (some 0) cs := by
  simp [longestRun]

theorem longestRun_hash (n : Nat) (cs : List Char) :
    longestRun (some n) ('#' :: cs) = max (n + 1) (longestRun (some (n + 1)) cs) := by
  simp [longestRun]

theorem longestRun_hash_none (cs : List Char) :
    longestRun none ('#' :: cs) = longestRun none cs := by
  simp [longestRun]

theorem longestRun_other {c : Char} (hquote : c ≠ '"') (hhash : c ≠ '#') (run : Option Nat)
    (cs : List Char) : longestRun run (c :: cs) = longestRun none cs := by
  cases run <;> simp [longestRun, hquote, hhash]

/-- Whether a run of `n` hashes behind a quote goes on at the front of a text up to `h` hashes, or
such a run stands in the text. -/
def Reaches (h n : Nat) (cs : List Char) : Prop :=
  (∃ k, hashes (k + 1) <+: cs ∧ h ≤ n + (k + 1)) ∨ Text.contains (closing h) cs = true

theorem contains_closing_quote {h : Nat} (hpos : 0 < h) (cs : List Char) :
    Text.contains (closing h) ('"' :: cs) = true ↔ Reaches h 0 cs := by
  rw [Text.contains_cons, Bool.or_eq_true, closing_prefix_cons, Reaches]
  constructor
  · rintro (⟨_, hk⟩ | hin)
    · obtain ⟨k, rfl⟩ : ∃ k, h = k + 1 := ⟨h - 1, by omega⟩
      exact Or.inl ⟨k, hk, by omega⟩
    · exact Or.inr hin
  · rintro (⟨k, hk, hle⟩ | hin)
    · exact Or.inl ⟨rfl, hashes_prefix_of_le (by omega) hk⟩
    · exact Or.inr hin

theorem contains_closing_cons {c : Char} (hquote : c ≠ '"') (h : Nat) (cs : List Char) :
    Text.contains (closing h) (c :: cs) = true ↔ Text.contains (closing h) cs = true := by
  rw [Text.contains_cons, Bool.or_eq_true, closing_prefix_cons]
  simp [hquote]

theorem reaches_hash {h n : Nat} (cs : List Char) :
    Reaches h n ('#' :: cs) ↔ h ≤ n + 1 ∨ Reaches h (n + 1) cs := by
  rw [Reaches, Reaches, contains_closing_cons (by decide)]
  constructor
  · rintro (⟨k, hk, hle⟩ | hin)
    · cases k with
      | zero => exact Or.inl hle
      | succ k => exact Or.inr (Or.inl ⟨k, (hashes_prefix_cons.mp hk).2, by omega⟩)
    · exact Or.inr (Or.inr hin)
  · rintro (hle | ⟨k, hk, hle⟩ | hin)
    · exact Or.inl ⟨0, hashes_prefix_cons.mpr ⟨rfl, List.nil_prefix⟩, hle⟩
    · exact Or.inl ⟨k + 1, hashes_prefix_cons.mpr ⟨rfl, hk⟩, by omega⟩
    · exact Or.inr hin

theorem reaches_cons {c : Char} (hhash : c ≠ '#') {h n : Nat} (cs : List Char) :
    Reaches h n (c :: cs) ↔ Text.contains (closing h) (c :: cs) = true := by
  have hrun : ∀ k, ¬ hashes (k + 1) <+: c :: cs := by
    intro k hk
    exact hhash (hashes_prefix_cons.mp hk).1
  simp [Reaches, hrun]

/-- The longest run is at least `h` exactly when `h` hashes follow a quote somewhere. With a run
already begun, the hashes at the front of the text count towards it. -/
theorem le_longestRun_iff {h : Nat} (hpos : 0 < h) (cs : List Char) :
    (h ≤ longestRun none cs ↔ Text.contains (closing h) cs = true) ∧
      ∀ n, h ≤ longestRun (some n) cs ↔ Reaches h n cs := by
  -- Both counts at once: a quote begins a run, and any other character but a hash ends it.
  induction cs with
  | nil =>
    have hempty : Text.contains (closing h) [] = false := rfl
    have hrun : ∀ k, ¬ hashes (k + 1) <+: [] := by
      intro k hk
      cases List.prefix_nil.mp hk
    simp only [longestRun, Reaches, hempty, hrun]
    refine ⟨⟨fun hle => by omega, fun hin => by cases hin⟩, fun n => ⟨fun hle => by omega, ?_⟩⟩
    rintro (⟨_, hk, _⟩ | hin)
    · cases hk
    · cases hin
  | cons c cs ih =>
    obtain ⟨ihnone, ihsome⟩ := ih
    by_cases hquote : c = '"'
    · subst hquote
      simp only [longestRun_quote, ihsome 0, reaches_cons (show '"' ≠ '#' by decide),
        contains_closing_quote hpos, implies_true, and_self]
    by_cases hhash : c = '#'
    · subst hhash
      refine ⟨?_, fun n => ?_⟩
      · rw [longestRun_hash_none, ihnone, contains_closing_cons (by decide)]
      · rw [longestRun_hash, reaches_hash, ← ihsome (n + 1)]
        omega
    · simp only [longestRun_other hquote hhash, ihnone, reaches_cons hhash,
        contains_closing_cons hquote, implies_true, and_self]

theorem contains_closing_iff_lt {n : Nat} (hpos : 1 ≤ n) (cs : List Char) :
    Text.contains (closing n) cs = true ↔ n < fenceLength cs := by
  rw [← (le_longestRun_iff hpos cs).1, fenceLength]
  omega

theorem contains_closing_fenceLength (cs : List Char) :
    Text.contains (closing (fenceLength cs)) cs = false := by
  have hpos : 1 ≤ fenceLength cs := Nat.le_add_left 1 _
  refine Bool.eq_false_iff.mpr fun hin => ?_
  exact Nat.lt_irrefl _ ((contains_closing_iff_lt hpos cs).mp hin)

/-! ## The least fence -/

/-- Whether a raw literal with a fence of `n` hashes ends at the end of its text and not before. -/
def Seals (n : Nat) (cs rest : List Char) : Prop :=
  Text.FirstAt (closing n) (cs ++ (closing n ++ rest)) cs.length

theorem seals_iff_not_contains {n : Nat} {cs rest : List Char} :
    Seals n cs rest ↔ Text.contains (closing n) cs = false := by
  constructor
  · intro h
    refine Bool.eq_false_iff.mpr fun hin => ?_
    obtain ⟨before, after, heq⟩ := Text.contains_iff_infix.mp hin
    have hlt : before.length < cs.length := by
      rw [← heq]
      simp only [closing, List.length_append, List.length_cons]
      omega
    apply h.2 before.length hlt
    rw [← heq, List.append_assoc, List.append_assoc, List.drop_left]
    exact List.prefix_append _ _
  · intro h
    exact Text.firstAt_of_cut (cut_closing h rest)

theorem seals_iff_le {n : Nat} (hpos : 1 ≤ n) {cs rest : List Char} :
    Seals n cs rest ↔ fenceLength cs ≤ n := by
  rw [seals_iff_not_contains, ← Bool.not_eq_true, contains_closing_iff_lt hpos, Nat.not_lt]

/-- A longer fence does where a shorter one does. -/
theorem Seals.longer {m n : Nat} {cs rest : List Char} (h : Seals m cs rest) (hle : m ≤ n) :
    Seals n cs rest := by
  rw [seals_iff_not_contains] at h ⊢
  refine Bool.eq_false_iff.mpr fun hin => ?_
  have hprefix : closing m <+: closing n := by
    rw [closing, closing, List.cons_prefix_cons]
    exact ⟨rfl, hashes_prefix_of_le hle (List.prefix_refl _)⟩
  have hshort : closing m <:+: cs :=
    hprefix.isInfix.trans (Text.contains_iff_infix.mp hin)
  rw [Text.contains_iff_infix.mpr hshort] at h
  cases h

/-- A text is refused where no fence that a literal may have would do. -/
theorem fenced_error_iff {cs : List Char} :
    (∃ cause, fenced cs = .error cause) ↔ ∀ n ≤ maxFence, ∀ rest, ¬ Seals n cs rest := by
  have herror : (∃ cause, fenced cs = .error cause) ↔ maxFence < fenceLength cs := by
    rw [fenced]
    split
    · rename_i hlong
      exact ⟨fun _ => hlong, fun _ => ⟨_, rfl⟩⟩
    · rename_i hshort
      constructor
      · intro hrefused
        obtain ⟨cause, hcause⟩ := hrefused
        cases hcause
      · intro hlong
        exact absurd hlong hshort
  rw [herror]
  constructor
  · intro hlong n hn rest hseals
    -- The longest fence is the one to look at, also for a literal without any hashes.
    have hmax : Seals maxFence cs rest := hseals.longer hn
    rw [seals_iff_le (by decide)] at hmax
    omega
  · intro hnone
    have hmax := hnone maxFence (Nat.le_refl _) []
    rw [seals_iff_le (by decide)] at hmax
    omega

/-- With the chosen fence a literal ends where its text ends, whatever follows, and no shorter fence
does that. A text is refused exactly if no fence would do. -/
theorem fenceLength_least (cs : List Char) :
    1 ≤ fenceLength cs ∧
      (∀ rest, Seals (fenceLength cs) cs rest ∧
        Text.cut (closing (fenceLength cs)) (cs ++ (closing (fenceLength cs) ++ rest)) =
          some (cs, rest)) ∧
      (∀ n rest, 1 ≤ n → Seals n cs rest → fenceLength cs ≤ n) ∧
      ((∃ cause, fenced cs = .error cause) ↔ ∀ n ≤ maxFence, ∀ rest, ¬ Seals n cs rest) := by
  have hpos : 1 ≤ fenceLength cs := Nat.le_add_left 1 _
  refine ⟨hpos, fun rest => ⟨(seals_iff_le hpos).mpr (Nat.le_refl _), ?_⟩, ?_, fenced_error_iff⟩
  · exact cut_closing (contains_closing_fenceLength cs) rest
  · intro n rest hn hseals
    exact (seals_iff_le hn).mp hseals

/-- A text that ends in a quote and a hash, and a text with more hashes than a fence may have. -/
theorem fenceLength_least_trailingHash :
    Seals 2 "over \"#".toList "#,".toList ∧ ¬ Seals 1 "over \"#".toList "#,".toList ∧
      ∀ n ≤ maxFence, ∀ rest, ¬ Seals n ('"' :: hashes maxFence) rest := by
  obtain ⟨-, hseals, hleast, -⟩ := fenceLength_least "over \"#".toList
  obtain ⟨-, -, -, hrefused⟩ := fenceLength_least ('"' :: hashes maxFence)
  have hlong : fenceLength ('"' :: hashes maxFence) > maxFence := by decide +kernel
  refine ⟨(hseals "#,".toList).1, ?_, hrefused.mp ⟨_, by simp only [fenced, hlong, if_true]; rfl⟩⟩
  intro hone
  exact absurd (hleast 1 _ (Nat.le_refl 1) hone) (by decide +kernel)

/-! ## Raw literals -/

theorem rawWith_append (n : Nat) (cs rest : List Char) :
    rawWith n cs ++ rest = 'r' :: (hashes n ++ '"' :: (cs ++ (closing n ++ rest))) := by
  simp [rawWith, closing]

theorem fenced_eq_ok_iff {cs literal : List Char} :
    fenced cs = .ok literal ↔
      fenceLength cs ≤ maxFence ∧ rawWith (fenceLength cs) cs = literal := by
  simp only [fenced]
  split
  · rename_i h
    exact ⟨fun he => (by cases he), fun he => absurd he.1 (by omega)⟩
  · rename_i h
    exact ⟨fun he => ⟨by omega, Except.ok.inj he⟩, fun he => by rw [he.2]⟩

theorem prompt_eq_ok_iff {text : String} {literal : List Char} :
    prompt text = .ok literal ↔ '\r' ∉ text.toList ∧ fenced text.toList = .ok literal := by
  simp only [prompt, List.contains_iff_mem]
  split
  · rename_i h
    exact ⟨fun he => (by cases he), fun he => absurd h he.1⟩
  · rename_i h
    exact ⟨fun he => ⟨h, he⟩, fun he => he.2⟩

end Literal

namespace Label

open Literal (closing hashes mem_hashes rawWith rawWith_append)

theorem rawOpening_hashes (n : Nat) (rest : List Char) :
    rawOpening ('r' :: (hashes n ++ '"' :: rest)) = some (hashes n, rest) := by
  have hall : ∀ c ∈ hashes n, decide (c = '#') = true := by
    intro c hc
    simpa using mem_hashes hc
  have hdrop : (hashes n ++ '"' :: rest).dropWhile (· = '#') = '"' :: rest := by
    rw [List.dropWhile_append_of_pos hall]
    simp
  have htake : (hashes n ++ '"' :: rest).takeWhile (· = '#') = hashes n := by
    rw [List.takeWhile_append_of_pos hall]
    simp
  simp only [rawOpening, hdrop, htake]

theorem exists_of_rawOpening {rest fence body : List Char}
    (h : rawOpening rest = some (fence, body)) :
    ∃ n, fence = hashes n ∧ rest = 'r' :: (hashes n ++ '"' :: body) := by
  unfold rawOpening at h
  split at h
  · rename_i more
    split at h
    · rename_i body' hdrop
      cases h
      have hfence : more.takeWhile (· = '#') =
          hashes (more.takeWhile (· = '#')).length := by
        rw [hashes, List.eq_replicate_iff]
        refine ⟨rfl, fun c hc => ?_⟩
        simpa using List.all_eq_true.mp List.all_takeWhile c hc
      refine ⟨_, hfence, ?_⟩
      rw [← hfence, ← hdrop, List.takeWhile_append_dropWhile]
    · cases h
  · cases h

end Label
end Agentry
