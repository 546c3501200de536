import Agentry.Proofs.Sha256
import Mathlib.Data.String.Basic
import Mathlib.Tactic.SplitIfs
/-!
# Texts in the order of their octets

A character with the greater code point has the greater octets: more of them, and then a greater
lead octet, or as many, and then the groups of six bits decide. So texts come in the order of their
characters and of their octets alike.
-/
namespace Agentry.Text

theorem ofNat_lt_ofNat {m n : Nat} (h : m < n) (hn : n < 256) :
    UInt8.ofNat m < UInt8.ofNat n := by
  rw [UInt8.lt_iff_toNat_lt, UInt8.toNat_ofNat', UInt8.toNat_ofNat']
  omega

/-- Octets of one number compare as they do with any others behind them. -/
theorem append_lt_append {as bs : List UInt8} (hlength : as.length = bs.length) (h : as < bs)
    (xs ys : List UInt8) : as ++ xs < bs ++ ys := by
  induction as generalizing bs with
  | nil =>
    cases bs with
    | nil => exact absurd h (List.not_lt_nil _)
    | cons b bs => cases hlength
  | cons a as ih =>
    cases bs with
    | nil => cases hlength
    | cons b bs =>
      rw [List.cons_append, List.cons_append, List.cons_lt_cons_iff]
      rcases List.cons_lt_cons_iff.mp h with hlt | ⟨heq, hrest⟩
      · exact Or.inl hlt
      · exact Or.inr ⟨heq, ih (Nat.succ.inj hlength) hrest⟩

theorem utf8EncodeChar_append_lt {c d : Char} (h : c < d) (xs ys : List UInt8) :
    String.utf8EncodeChar c ++ xs < String.utf8EncodeChar d ++ ys := by
  have hlt : c.val.toNat < d.val.toNat := h
  have hd : d.val.toNat < 1114112 := by
    rcases d.valid with hd | ⟨-, hd⟩
    · exact Nat.lt_trans hd (by decide)
    · exact hd
  simp only [String.utf8EncodeChar]
  generalize c.val.toNat = m at *
  generalize d.val.toNat = n at *
  -- No character takes more octets than a later one. If it takes fewer, the lead octets decide.
  split_ifs
  all_goals first
    | omega
    | exact List.cons_lt_cons_iff.mpr (Or.inl (ofNat_lt_ofNat (by omega) (by omega)))
    | skip
  all_goals
    refine append_lt_append ?_ ?_ xs ys
    · rfl
    simp only [List.cons_lt_cons_iff, UInt8.lt_iff_toNat_lt, ← UInt8.toNat_inj, UInt8.toNat_ofNat']
    simp (disch := omega) only [Nat.mod_eq_of_lt]
    omega

theorem flatMap_lt_flatMap {cs ds : List Char} (h : cs < ds) :
    cs.flatMap String.utf8EncodeChar < ds.flatMap String.utf8EncodeChar := by
  induction cs generalizing ds with
  | nil =>
    cases ds with
    | nil => exact absurd h (List.not_lt_nil _)
    | cons d ds =>
      have hne : String.utf8EncodeChar d ≠ [] := String.utf8EncodeChar_ne_nil
      obtain ⟨octet, more, hd⟩ := List.exists_cons_of_ne_nil hne
      rw [List.flatMap_nil, List.flatMap_cons, hd]
      exact List.nil_lt_cons _ _
  | cons c cs ih =>
    cases ds with
    | nil => exact absurd h (List.not_lt_nil _)
    | cons d ds =>
      rw [List.flatMap_cons, List.flatMap_cons]
      rcases List.cons_lt_cons_iff.mp h with hlt | ⟨rfl, hrest⟩
      · exact utf8EncodeChar_append_lt hlt _ _
      · exact List.append_left_lt (ih hrest)

theorem toUTF8_lt_toUTF8 {s t : String} (h : s < t) : s.toUTF8.toList < t.toUTF8.toList := by
  have hs := Sha256.octets_ofList s.toList
  have ht := Sha256.octets_ofList t.toList
  rw [String.ofList_toList] at hs ht
  rw [hs, ht]
  exact flatMap_lt_flatMap (String.lt_iff_toList_lt.mp h)

/-! ## Sorting -/

section Sorting

variable {α : Type} (key : α → String)

theorem pairwise_mergeSort_le (items : List α) :
    (items.mergeSort fun a b => decide (key a ≤ key b)).Pairwise fun a b => key a ≤ key b := by
  have htrans : ∀ a b c : α, decide (key a ≤ key b) = true → decide (key b ≤ key c) = true →
      decide (key a ≤ key c) = true :=
    fun a b c hab hbc => decide_eq_true (le_trans (of_decide_eq_true hab) (of_decide_eq_true hbc))
  have htotal : ∀ a b : α, (decide (key a ≤ key b) || decide (key b ≤ key a)) = true := by
    intro a b
    rw [Bool.or_eq_true, decide_eq_true_iff, decide_eq_true_iff]
    exact le_total (key a) (key b)
  exact (List.pairwise_mergeSort htrans htotal items).imp fun hle => of_decide_eq_true hle

/-- Items with distinct keys are sorted so that the octets of the keys increase. -/
theorem increasing_mergeSort {items : List α} (h : (items.map key).Nodup) :
    (items.mergeSort fun a b => decide (key a ≤ key b)).Pairwise
      fun a b => (key a).toUTF8.toList < (key b).toUTF8.toList := by
  have hperm := List.mergeSort_perm items fun a b => decide (key a ≤ key b)
  have hdistinct := List.pairwise_map.mp ((hperm.map key).nodup_iff.mpr h)
  refine ((pairwise_mergeSort_le key items).and hdistinct).imp ?_
  intro a b hab
  exact toUTF8_lt_toUTF8 (lt_of_le_of_ne hab.1 hab.2)

end Sorting

end Agentry.Text
