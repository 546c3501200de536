import Agentry.Proofs.Artifact.Rendering
import Agentry.Proofs.Source.Reading
/-!
# Literals of the source language

What an artifact writes between quotes is an ordinary literal with five escapes, and what it writes
between fences is a raw literal. A reader of tokens takes each of them whole and finds the text that
it was made of.
-/
namespace Agentry.Source

open Json (IsPlain quote quote_append quoteBody quoteBody_cons quoteChar)
open Literal (closing hashes isUnwritable mem_hashes quoted rawWith rawWith_append)

/-- The letters of the escapes that an artifact uses, with what they stand for. -/
def escapes : List (Char × Char) :=
  [('"', '"'), ('\\', '\\'), ('n', '\n'), ('r', '\r'), ('t', '\t')]

/-- What stands between the quotes of an ordinary literal, and its value. -/
inductive Body : List Char → List Char → Prop where
  | nil : Body [] []
  | plain {c : Char} {cs value : List Char} :
    c ≠ '"' → c ≠ '\\' → c ≠ '\r' → Body cs value → Body (c :: cs) (c :: value)
  | escape {e c : Char} {cs value : List Char} :
    (e, c) ∈ escapes → Body cs value → Body ('\\' :: e :: cs) (c :: value)

def Ordinary (text value : List Char) : Prop :=
  ∃ body, Body body value ∧ text = '"' :: (body ++ ['"'])

/-- A raw literal ends at the first quote behind which its hashes stand. -/
def Raw (text value : List Char) : Prop :=
  ∃ n ≤ 255, text = 'r' :: (hashes n ++ '"' :: (value ++ closing n)) ∧ '\r' ∉ value ∧
    ∀ rest, Text.cut (closing n) (value ++ (closing n ++ rest)) = some (value, rest)

def Legal (text value : List Char) : Prop := Ordinary text value ∨ Raw text value

/-- A literal that is read whole, and as its value, unless a word touches it. -/
def ReadsAs (text value : List Char) : Prop :=
  ∀ rest, startsWith isWordChar rest = false →
    next (text ++ rest) = some (some (.literal text value), rest)

theorem asLiteral_whole {text value rest : List Char}
    (hrest : startsWith isWordChar rest = false) :
    asLiteral (text ++ rest) (some (value, rest)) = some (some (.literal text value), rest) := by
  have htake : (text ++ rest).take ((text ++ rest).length - rest.length) = text := by
    rw [List.length_append, Nat.add_sub_cancel, List.take_left]
  simp only [asLiteral, hrest, htake]
  rfl

/-! ## Ordinary literals -/

theorem Body.readBody_append {body value : List Char} (h : Body body value) (rest : List Char) :
    readBody .plain (body ++ '"' :: rest) = some (value, rest) := by
  induction h with
  | nil => rfl
  | @plain c cs value hquote hslash hreturn _ ih =>
    have hstep : step .plain c = .go (some c) .plain := by
      simp [step, plainStep, hquote, hslash, hreturn]
    simp only [List.cons_append, readBody, hstep, ih]
    rfl
  | @escape e c cs value he _ ih =>
    have hslash : step .plain '\\' = .go none .escaped := rfl
    have hletter : ∀ p ∈ escapes, letterEscape? p.1 = some p.2 := by decide
    have hstep : step .escaped e = .go (some c) .plain := by
      simp only [step, escapedStep, hletter (e, c) he]
    simp only [List.cons_append, readBody, hslash, hstep, ih]
    rfl

theorem Ordinary.readsAs {text value : List Char} (h : Ordinary text value) :
    ReadsAs text value := by
  obtain ⟨body, hbody, rfl⟩ := h
  intro rest hrest
  have hread : readBody .plain (body ++ ['"'] ++ rest) = some (value, rest) := by
    rw [List.append_assoc]
    exact hbody.readBody_append rest
  rw [List.cons_append, next, if_neg (by decide), if_neg (by decide), if_pos rfl, hread,
    ← List.cons_append]
  exact asLiteral_whole hrest

theorem quoteChar_of_writable {c : Char} (h : isUnwritable c = false) :
    (quoteChar c = [c] ∧ c ≠ '"' ∧ c ≠ '\\' ∧ c ≠ '\r') ∨
      ∃ e, quoteChar c = ['\\', e] ∧ (e, c) ∈ escapes := by
  by_cases hquote : c = '"'
  · subst hquote
    exact Or.inr ⟨'"', by decide⟩
  by_cases hslash : c = '\\'
  · subst hslash
    exact Or.inr ⟨'\\', by decide⟩
  by_cases hline : c = '\n'
  · subst hline
    exact Or.inr ⟨'n', by decide⟩
  by_cases hreturn : c = '\r'
  · subst hreturn
    exact Or.inr ⟨'r', by decide⟩
  by_cases htab : c = '\t'
  · subst htab
    exact Or.inr ⟨'t', by decide⟩
  -- The other controls have escapes that only documents know; they are not writable.
  have hlow : ¬ c.toNat < 0x20 := by
    intro hlow
    simp [isUnwritable, hlow, hline, hreturn, htab] at h
  have hcontrols : c.toNat ≠ 8 ∧ c.toNat ≠ 12 := by omega
  refine Or.inl ⟨?_, hquote, hslash, hreturn⟩
  simp [quoteChar, hquote, hslash, hline, hreturn, htab, hlow, hcontrols.1, hcontrols.2]

theorem body_quoteBody {cs : List Char} (h : ∀ c ∈ cs, isUnwritable c = false) :
    Body (quoteBody cs) cs := by
  induction cs with
  | nil => exact .nil
  | cons c cs ih =>
    have hrest := ih fun d hd => h d (List.mem_cons_of_mem _ hd)
    have hchar := quoteChar_of_writable (h c List.mem_cons_self)
    rw [quoteBody_cons]
    rcases hchar with ⟨hc, hquote, hslash, hreturn⟩ | ⟨e, hc, he⟩
    · rw [hc]
      exact .plain hquote hslash hreturn hrest
    · rw [hc]
      exact .escape he hrest

theorem ordinary_quoted {s : String} (h : ∀ c ∈ s.toList, isUnwritable c = false) :
    Ordinary (quoted s) s.toList :=
  ⟨quoteBody s.toList, body_quoteBody h, by simp [quoted, quote]⟩

/-! ## Raw literals -/

theorem Raw.readsAs {text value : List Char} (h : Raw text value) : ReadsAs text value := by
  obtain ⟨n, hn, rfl, hreturn, hcut⟩ := h
  intro rest hrest
  have hhash : ∀ c ∈ hashes n, decide (c = '#') = true := by
    intro c hc
    simpa using mem_hashes hc
  have hdrop : ∀ cs, (hashes n ++ '"' :: cs).dropWhile (· = '#') = '"' :: cs := by
    intro cs
    rw [List.dropWhile_append_of_pos hhash, List.dropWhile_cons_of_neg (by decide)]
  have htake : ∀ cs, (hashes n ++ '"' :: cs).takeWhile (· = '#') = hashes n := by
    intro cs
    rw [List.takeWhile_append_of_pos hhash, List.takeWhile_cons_of_neg (by decide), List.append_nil]
  have hlength : (hashes n).length ≤ 255 := by
    simpa [hashes] using hn
  have hread :
      readRaw (hashes n ++ '"' :: (value ++ (closing n ++ rest))) = some (value, rest) := by
    have hcut' := hcut rest
    rw [closing] at hcut'
    simp only [readRaw, hdrop, htake]
    rw [closing, hcut']
    simp [hlength, hreturn]
  have hopens : opensRaw (hashes n ++ '"' :: (value ++ (closing n ++ rest))) = true := by
    rw [opensRaw, hdrop]
    rfl
  have hsplit : 'r' :: (hashes n ++ '"' :: (value ++ closing n)) ++ rest =
      'r' :: (hashes n ++ '"' :: (value ++ (closing n ++ rest))) := by
    simp
  have hnext : next ('r' :: (hashes n ++ '"' :: (value ++ (closing n ++ rest)))) =
      asLiteral ('r' :: (hashes n ++ '"' :: (value ++ (closing n ++ rest))))
        (some (value, rest)) := by
    rw [next, if_neg (by decide), if_neg (by decide), if_neg (by decide),
      if_pos (by simp [hopens]), hread]
  rw [hsplit, hnext, ← hsplit]
  exact asLiteral_whole hrest

theorem raw_of_raw {text value : List Char} (h : Literal.Raw value text) (hreturn : '\r' ∉ value) :
    Raw text value := by
  obtain ⟨n, hn, hclosed, rfl⟩ := h
  refine ⟨n, hn, ?_, hreturn, Literal.cut_closing hclosed⟩
  simpa using rawWith_append n value []

theorem Legal.readsAs {text value : List Char} (h : Legal text value) : ReadsAs text value :=
  h.elim Ordinary.readsAs Raw.readsAs

end Agentry.Source
