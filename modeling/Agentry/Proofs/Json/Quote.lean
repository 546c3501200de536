import Agentry.Artifact.Balanced
import Agentry.Artifact.Label
import Agentry.Json.Quote
/-!
# Quoted strings read back

Three readers meet a quoted string: the reader of documents, the search for the literal of a label,
and the balanced scan. All of them take a backslash and the character behind it together, so each
stops at the closing quote and not before it.
-/
namespace Agentry

namespace Json

open Text (hexDigit hexValue? hexValue?_hexDigit)

/-- A character that stands for itself between quotes. -/
def IsPlain (c : Char) : Prop := c ≠ '"' ∧ c ≠ '\\' ∧ 0x20 ≤ c.toNat

/-- The text between the quotes of a string, and the pieces that it stands for. -/
inductive StringBody : List Char → List Piece → Prop where
  | nil : StringBody [] []
  | plain {c : Char} {cs : List Char} {ps : List Piece} :
    IsPlain c → StringBody cs ps → StringBody (c :: cs) (.char c :: ps)
  | escape {e c : Char} {cs : List Char} {ps : List Piece} :
    letterEscape? e = some c → StringBody cs ps → StringBody ('\\' :: e :: cs) (.char c :: ps)
  | unit {a b c d : Char} {n : Nat} {cs : List Char} {ps : List Piece} :
    hexValue4? a b c d = some n → StringBody cs ps →
      StringBody ('\\' :: 'u' :: a :: b :: c :: d :: cs) (.ofUnit n :: ps)

theorem isPlain_of_hexValue? {c : Char} {n : Nat} (h : hexValue? c = some n) : IsPlain c := by
  have hquote : hexValue? '"' = none := by decide
  have hslash : hexValue? '\\' = none := by decide
  refine ⟨?_, ?_, ?_⟩
  · rintro rfl
    simp [hquote] at h
  · rintro rfl
    simp [hslash] at h
  · simp only [hexValue?, Bool.and_eq_true, decide_eq_true_eq] at h
    split at h
    · omega
    split at h
    · omega
    split at h
    · omega
    · cases h

theorem isPlain_of_hexValue4? {a b c d : Char} {n : Nat} (h : hexValue4? a b c d = some n) :
    IsPlain a ∧ IsPlain b ∧ IsPlain c ∧ IsPlain d := by
  unfold hexValue4? at h
  split at h
  · rename_i ha hb hc hd
    exact ⟨isPlain_of_hexValue? ha, isPlain_of_hexValue? hb, isPlain_of_hexValue? hc,
      isPlain_of_hexValue? hd⟩
  · cases h

theorem letterEscape?_range {c e : Char} (h : letterEscape? e = some c) :
    0x20 ≤ e.toNat ∧ e ≠ 'u' := by
  unfold letterEscape? at h
  split at h
  case h_9 => cases h
  all_goals decide

theorem StringBody.le_toNat {body : List Char} {ps : List Piece} (h : StringBody body ps) :
    ∀ c ∈ body, 0x20 ≤ c.toNat := by
  have hslash : 0x20 ≤ ('\\' : Char).toNat := by decide
  have hu : 0x20 ≤ ('u' : Char).toNat := by decide
  induction h with
  | nil => simp
  | plain hc _ ih => simpa using ⟨hc.2.2, ih⟩
  | escape he _ ih => simpa [hslash] using ⟨(letterEscape?_range he).1, ih⟩
  | unit hn _ ih =>
    obtain ⟨ha, hb, hc, hd⟩ := isPlain_of_hexValue4? hn
    simpa [hslash, hu] using ⟨ha.2.2, hb.2.2, hc.2.2, hd.2.2, ih⟩

/-! ## Reading pieces -/

theorem readPieces_plain {c : Char} (h : IsPlain c) (rest : List Char) :
    readPieces (c :: rest) =
      (readPieces rest).map fun (pieces, after) => (.char c :: pieces, after) := by
  obtain ⟨hquote, hslash, hle⟩ := h
  have hlow : ¬ c.toNat < 0x20 := by omega
  rw [readPieces]
  · simp [hslash, hlow]
  · exact hquote
  · intro _ _ _ _ _ h _
    exact hslash h
  · intro _ _ h _
    exact hslash h

theorem readPieces_escape {c e : Char} (h : letterEscape? e = some c) (rest : List Char) :
    readPieces ('\\' :: e :: rest) =
      (readPieces rest).map fun (pieces, after) => (.char c :: pieces, after) := by
  rw [readPieces, h]
  intro _ _ _ _ _ hu _
  exact (letterEscape?_range h).2 hu

theorem StringBody.readPieces_append {body : List Char} {ps : List Piece} (h : StringBody body ps)
    (rest : List Char) : readPieces (body ++ '"' :: rest) = some (ps, rest) := by
  induction h with
  | nil => rfl
  | plain hc _ ih =>
    rw [List.cons_append, readPieces_plain hc, ih]
    rfl
  | escape he _ ih =>
    rw [List.cons_append, List.cons_append, readPieces_escape he, ih]
    rfl
  | unit hn _ ih =>
    simp only [List.cons_append, readPieces, hn, ih]
    rfl

/-- Whatever reads as a string is a body up to its closing quote. -/
theorem stringBody_of_readPieces {cs : List Char} {ps : List Piece} {after : List Char}
    (h : readPieces cs = some (ps, after)) :
    ∃ body, cs = body ++ '"' :: after ∧ StringBody body ps := by
  fun_induction readPieces cs generalizing ps after with
  | case1 => cases h
  | case2 rest =>
    obtain ⟨rfl, rfl⟩ : [] = ps ∧ rest = after := by simpa using h
    exact ⟨[], rfl, .nil⟩
  | case3 a b c d rest n hn ih =>
    obtain ⟨⟨qs, tail⟩, hrest, heq⟩ := Option.map_eq_some_iff.mp h
    obtain ⟨rfl, rfl⟩ : Piece.ofUnit n :: qs = ps ∧ tail = after := by simpa using heq
    obtain ⟨body, rfl, hbody⟩ := ih hrest
    exact ⟨_, rfl, .unit hn hbody⟩
  | case4 => cases h
  | case5 e rest _ c he ih =>
    obtain ⟨⟨qs, tail⟩, hrest, heq⟩ := Option.map_eq_some_iff.mp h
    obtain ⟨rfl, rfl⟩ : Piece.char c :: qs = ps ∧ tail = after := by simpa using heq
    obtain ⟨body, rfl, hbody⟩ := ih hrest
    exact ⟨_, rfl, .escape he hbody⟩
  | case6 => cases h
  | case7 => cases h
  | case8 c rest hquote _ _ hplain ih =>
    obtain ⟨⟨qs, tail⟩, hrest, heq⟩ := Option.map_eq_some_iff.mp h
    obtain ⟨rfl, rfl⟩ : Piece.char c :: qs = ps ∧ tail = after := by simpa using heq
    obtain ⟨body, rfl, hbody⟩ := ih hrest
    simp only [Bool.or_eq_true, decide_eq_true_eq, not_or, Nat.not_lt] at hplain
    exact ⟨_, rfl, .plain ⟨hquote, hplain.1, hplain.2⟩ hbody⟩

/-! ## Quoted texts -/

/-- A character is written as itself, as an escape of one letter, or by its number. -/
theorem quoteChar_shape (c : Char) :
    (quoteChar c = [c] ∧ IsPlain c) ∨ (∃ e, quoteChar c = ['\\', e] ∧ letterEscape? e = some c) ∨
    (quoteChar c = ['\\', 'u', '0', '0', hexDigit (c.toNat / 16), hexDigit (c.toNat % 16)] ∧
      c.toNat < 0x20) := by
  unfold quoteChar
  by_cases hq : c = '"'
  · subst hq
    exact Or.inr (Or.inl ⟨'"', by decide⟩)
  by_cases hb : c = '\\'
  · subst hb
    exact Or.inr (Or.inl ⟨'\\', by decide⟩)
  by_cases hn : c = '\n'
  · subst hn
    exact Or.inr (Or.inl ⟨'n', by decide⟩)
  by_cases hr : c = '\r'
  · subst hr
    exact Or.inr (Or.inl ⟨'r', by decide⟩)
  by_cases ht : c = '\t'
  · subst ht
    exact Or.inr (Or.inl ⟨'t', by decide⟩)
  by_cases h8 : c.toNat = 8
  · have hc : c = Char.ofNat 8 := by rw [← h8, Char.ofNat_toNat]
    subst hc
    exact Or.inr (Or.inl ⟨'b', by decide⟩)
  by_cases h12 : c.toNat = 12
  · have hc : c = Char.ofNat 12 := by rw [← h12, Char.ofNat_toNat]
    subst hc
    exact Or.inr (Or.inl ⟨'f', by decide⟩)
  by_cases hlow : c.toNat < 0x20
  · exact Or.inr (Or.inr ⟨by simp [hq, hb, hn, hr, ht, h8, h12, hlow], hlow⟩)
  · exact Or.inl ⟨by simp [hq, hb, hn, hr, ht, h8, h12, hlow], hq, hb, by omega⟩

theorem hexValue4?_hexDigit {n : Nat} (h : n < 0x20) :
    hexValue4? '0' '0' (hexDigit (n / 16)) (hexDigit (n % 16)) = some n := by
  have hzero : hexValue? '0' = some 0 := by decide
  have hhigh := hexValue?_hexDigit (show n / 16 < 16 by omega)
  have hlow := hexValue?_hexDigit (show n % 16 < 16 by omega)
  simp only [hexValue4?, hzero, hhigh, hlow]
  congr 1
  omega

theorem ofUnit_toNat {c : Char} (h : c.toNat < 0x20) : Piece.ofUnit c.toNat = .char c := by
  have hnone : (isHighSurrogate c.toNat || isLowSurrogate c.toNat) = false := by
    simp only [isHighSurrogate, isLowSurrogate, Bool.or_eq_false_iff, Bool.and_eq_false_iff,
      decide_eq_false_iff_not]
    omega
  simp [Piece.ofUnit, hnone, Char.ofNat_toNat]

theorem StringBody.quoteChar_append (c : Char) {cs : List Char} {ps : List Piece}
    (h : StringBody cs ps) : StringBody (quoteChar c ++ cs) (.char c :: ps) := by
  rcases quoteChar_shape c with ⟨hc, hplain⟩ | ⟨e, hc, he⟩ | ⟨hc, hlt⟩
  · rw [hc]
    exact .plain hplain h
  · rw [hc]
    exact .escape he h
  · rw [hc, ← ofUnit_toNat hlt]
    exact .unit (hexValue4?_hexDigit hlt) h

theorem quoteBody_cons (c : Char) (cs : List Char) :
    quoteBody (c :: cs) = quoteChar c ++ quoteBody cs := rfl

theorem stringBody_quoteBody (cs : List Char) : StringBody (quoteBody cs) (cs.map .char) := by
  induction cs with
  | nil => exact .nil
  | cons c cs ih => exact ih.quoteChar_append c

theorem quote_append (s : String) (rest : List Char) :
    quote s ++ rest = '"' :: (quoteBody s.toList ++ '"' :: rest) := by
  simp [quote]

theorem le_toNat_of_mem_quote {s : String} {d : Char} (h : d ∈ quote s) : 0x20 ≤ d.toNat := by
  rw [← List.append_nil (quote s), quote_append] at h
  rcases List.mem_cons.mp h with rfl | h
  · decide
  · rcases List.mem_append.mp h with h | h
    · exact (stringBody_quoteBody s.toList).le_toNat d h
    · rw [List.mem_singleton.mp h]
      decide

theorem newline_not_mem_quote (s : String) : '\n' ∉ quote s := by
  intro h
  exact absurd (le_toNat_of_mem_quote h) (by decide)

theorem joinPieces_char (cs : List Char) : joinPieces (cs.map .char) = some cs := by
  induction cs with
  | nil => rfl
  | cons c cs ih => simp [joinPieces, ih]

end Json

namespace Label

open Json (IsPlain Piece StringBody quote stringBody_quoteBody letterEscape?_range
  isPlain_of_hexValue4?)

variable {allowed : Char → Bool}

/-- Whatever a quoted string may hold stays on its line. -/
theorem inLine_of_le {c : Char} (h : 0x20 ≤ c.toNat) : (c != '\n') = true := by
  simp only [bne_iff_ne, ne_eq]
  rintro rfl
  exact absurd h (by decide)

/-- What may stand between the quotes of a literal: characters that are allowed there, and a
backslash with any character but a line feed. -/
inductive Enclosed (allowed : Char → Bool) : List Char → Prop where
  | nil : Enclosed allowed []
  | plain {c : Char} {cs : List Char} :
    c ≠ '"' → c ≠ '\\' → allowed c = true → Enclosed allowed cs → Enclosed allowed (c :: cs)
  | escape {c : Char} {cs : List Char} :
    c ≠ '\n' → Enclosed allowed cs → Enclosed allowed ('\\' :: c :: cs)

/-- The pattern of literals: what may be enclosed, between two quotes. -/
def Quotation (allowed : Char → Bool) (literal : List Char) : Prop :=
  ∃ body, Enclosed allowed body ∧ literal = '"' :: (body ++ ['"'])

theorem quotedBody_plain {c : Char} (hquote : c ≠ '"') (hslash : c ≠ '\\')
    (hok : allowed c = true) (rest : List Char) :
    quotedBody allowed (c :: rest) =
      (quotedBody allowed rest).map fun (body, after) => (c :: body, after) := by
  rw [quotedBody]
  · simp [hslash, hok]
  · exact hquote
  · intro _ _ h _
    exact hslash h

theorem Enclosed.quotedBody_append {body : List Char} (h : Enclosed allowed body)
    (rest : List Char) : quotedBody allowed (body ++ '"' :: rest) = some (body ++ ['"'], rest) := by
  induction h with
  | nil => rfl
  | plain hquote hslash hok _ ih =>
    rw [List.cons_append, quotedBody_plain hquote hslash hok, ih]
    rfl
  | escape hline _ ih =>
    rw [List.cons_append, List.cons_append, quotedBody, if_neg hline, ih]
    rfl

theorem enclosed_of_quotedBody {cs passed after : List Char}
    (h : quotedBody allowed cs = some (passed, after)) :
    ∃ body, Enclosed allowed body ∧ passed = body ++ ['"'] ∧ cs = passed ++ after := by
  fun_induction quotedBody allowed cs generalizing passed with
  | case1 => cases h
  | case2 rest =>
    cases h
    exact ⟨[], .nil, rfl, rfl⟩
  | case3 rest => cases h
  | case4 c rest hline ih =>
    obtain ⟨⟨more, tail⟩, hrest, heq⟩ := Option.map_eq_some_iff.mp h
    cases heq
    obtain ⟨body, hbody, rfl, rfl⟩ := ih hrest
    exact ⟨_, .escape hline hbody, rfl, rfl⟩
  | case5 c rest _ _ hrefused => cases h
  | case6 c rest hquote _ hok ih =>
    obtain ⟨⟨more, tail⟩, hrest, heq⟩ := Option.map_eq_some_iff.mp h
    cases heq
    obtain ⟨body, hbody, rfl, rfl⟩ := ih hrest
    obtain ⟨hslash, hallowed⟩ : c ≠ '\\' ∧ allowed c = true := by simpa using hok
    exact ⟨_, .plain hquote hslash hallowed hbody, rfl, rfl⟩

/-- A search for a literal finds exactly the beginnings of a text that match the pattern. -/
theorem quotedLiteral_eq_some_iff {cs literal after : List Char} :
    quotedLiteral allowed cs = some (literal, after) ↔
      Quotation allowed literal ∧ cs = literal ++ after := by
  constructor
  · intro h
    unfold quotedLiteral at h
    split at h
    · obtain ⟨⟨passed, tail⟩, hfound, heq⟩ := Option.map_eq_some_iff.mp h
      cases heq
      obtain ⟨body, hbody, rfl, rfl⟩ := enclosed_of_quotedBody hfound
      exact ⟨⟨body, hbody, rfl⟩, rfl⟩
    · cases h
  · rintro ⟨⟨body, hbody, rfl⟩, rfl⟩
    rw [List.cons_append, List.append_assoc, quotedLiteral]
    simp [hbody.quotedBody_append]

/-- At most one beginning of a text matches the pattern. -/
theorem Quotation.unique {a b cs : List Char} (ha : Quotation allowed a)
    (hb : Quotation allowed b) (hacs : a <+: cs) (hbcs : b <+: cs) : a = b := by
  obtain ⟨arest, rfl⟩ := hacs
  obtain ⟨brest, hcs⟩ := hbcs
  have hfounda : quotedLiteral allowed (a ++ arest) = some (a, arest) :=
    quotedLiteral_eq_some_iff.mpr ⟨ha, rfl⟩
  have hfoundb : quotedLiteral allowed (a ++ arest) = some (b, brest) :=
    quotedLiteral_eq_some_iff.mpr ⟨hb, hcs.symm⟩
  exact (Prod.mk.inj (Option.some.inj (hfounda.symm.trans hfoundb))).1

theorem eq_of_quotedLiteral {rest literal after : List Char}
    (h : quotedLiteral allowed rest = some (literal, after)) : rest = literal ++ after :=
  (quotedLiteral_eq_some_iff.mp h).2

theorem getLast?_quotedLiteral {rest literal after : List Char}
    (h : quotedLiteral allowed rest = some (literal, after)) :
    literal.getLast? = some '"' := by
  obtain ⟨⟨body, -, rfl⟩, -⟩ := quotedLiteral_eq_some_iff.mp h
  simp [List.getLast?_cons]

/-- What stands between the quotes of a string is between the quotes of a literal too. -/
theorem enclosed_of_stringBody (hallowed : ∀ c : Char, 0x20 ≤ c.toNat → allowed c = true)
    {body : List Char} {ps : List Piece} (h : StringBody body ps) : Enclosed allowed body := by
  have hplain : ∀ {c : Char} {cs : List Char}, IsPlain c → Enclosed allowed cs →
      Enclosed allowed (c :: cs) :=
    fun hc => .plain hc.1 hc.2.1 (hallowed _ hc.2.2)
  induction h with
  | nil => exact .nil
  | plain hc _ ih => exact hplain hc ih
  | escape he _ ih => exact .escape (by simpa using inLine_of_le (letterEscape?_range he).1) ih
  | unit hn _ ih =>
    obtain ⟨ha, hb, hc, hd⟩ := isPlain_of_hexValue4? hn
    exact .escape (by decide) (hplain ha (hplain hb (hplain hc (hplain hd ih))))

theorem quotation_quote (hallowed : ∀ c : Char, 0x20 ≤ c.toNat → allowed c = true) (s : String) :
    Quotation allowed (quote s) :=
  ⟨_, enclosed_of_stringBody hallowed (stringBody_quoteBody s.toList), rfl⟩

/-- A search for a literal takes a quoted string whole, whatever follows it. -/
theorem quotedLiteral_quote (hallowed : ∀ c : Char, 0x20 ≤ c.toNat → allowed c = true)
    (s : String) (rest : List Char) :
    quotedLiteral allowed (quote s ++ rest) = some (quote s, rest) :=
  quotedLiteral_eq_some_iff.mpr ⟨quotation_quote hallowed s, rfl⟩

end Label

namespace Balanced

open Json (IsPlain Piece StringBody isPlain_of_hexValue4?)

variable {opening closing : Char}

/-- More characters at the front of what has been passed. -/
def keepAll (cs : List Char) (r : Except ScanError (List Char × List Char)) :
    Except ScanError (List Char × List Char) :=
  cs.foldr keep r

@[simp] theorem keepAll_nil (r : Except ScanError (List Char × List Char)) :
    keepAll [] r = r := rfl

@[simp] theorem keepAll_cons (c : Char) (cs : List Char)
    (r : Except ScanError (List Char × List Char)) :
    keepAll (c :: cs) r = keep c (keepAll cs r) := rfl

theorem keepAll_append (a b : List Char) (r : Except ScanError (List Char × List Char)) :
    keepAll (a ++ b) r = keepAll a (keepAll b r) := by
  simp [keepAll]

theorem keepAll_ok (cs passed rest : List Char) :
    keepAll cs (.ok (passed, rest)) = .ok (cs ++ passed, rest) := by
  induction cs with
  | nil => rfl
  | cons c cs ih =>
    rw [keepAll_cons, ih]
    rfl

theorem close_inside_plain {c : Char} (h : IsPlain c) (depth : Nat) (rest : List Char) :
    close opening closing depth .inside (c :: rest) =
      keep c (close opening closing depth .inside rest) := by
  rw [close, if_neg h.2.1, if_neg h.1]

theorem close_inside_body {body : List Char} {ps : List Piece} (h : StringBody body ps)
    (depth : Nat) (rest : List Char) :
    close opening closing depth .inside (body ++ '"' :: rest) =
      keepAll (body ++ ['"']) (close opening closing depth .outside rest) := by
  induction h with
  | nil => simp [close]
  | plain hc _ ih =>
    rw [List.cons_append, close_inside_plain hc, ih]
    rfl
  | escape _ _ ih =>
    rw [List.cons_append, List.cons_append, close, if_pos rfl, close, ih]
    rfl
  | unit hn _ ih =>
    obtain ⟨ha, hb, hc, hd⟩ := isPlain_of_hexValue4? hn
    simp only [List.cons_append]
    rw [close, if_pos rfl, close, close_inside_plain ha, close_inside_plain hb,
      close_inside_plain hc, close_inside_plain hd, ih]
    rfl

/-- A balanced scan passes over a string, whatever delimiters stand in it. -/
theorem close_string {body : List Char} {ps : List Piece} (h : StringBody body ps) (depth : Nat)
    (rest : List Char) :
    close opening closing depth .outside ('"' :: (body ++ '"' :: rest)) =
      keepAll ('"' :: (body ++ ['"'])) (close opening closing depth .outside rest) := by
  rw [close, if_pos rfl, close_inside_body h]
  rfl

end Balanced
end Agentry
