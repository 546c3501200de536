import Agentry.Artifact.Slices
import Agentry.Proofs.Artifact.Offsets
/-!
# Scans of octets

A delimiter, a quote, a backslash and a line feed are single octets below 128, and no other
character has an octet below 128 in it. So a scan that goes octet by octet sees the same delimiters
and the same strings as one that goes character by character, and it ends between two characters.
-/
namespace Agentry.Sliced

open Agentry.Balanced (Delimiters Mode close keep openOnLine utf8Size utf8Size_cons)

/-! ## Octets of a text -/

theorem octets_append (a b : List Char) : octets (a ++ b) = octets a ++ octets b :=
  List.flatMap_append

theorem octets_cons (c : Char) (cs : List Char) :
    octets (c :: cs) = String.utf8EncodeChar c ++ octets cs := rfl

@[simp] theorem length_octets (cs : List Char) : (octets cs).length = utf8Size cs := by
  induction cs with
  | nil => rfl
  | cons c cs ih => rw [octets_cons, List.length_append, ih, String.length_utf8EncodeChar,
      utf8Size_cons]

/-- A character that is a single octet. -/
def IsAscii (c : Char) : Prop := c.toNat < 128

instance (c : Char) : Decidable (IsAscii c) := inferInstanceAs (Decidable (c.toNat < 128))

theorem utf8EncodeChar_ascii {c : Char} (h : IsAscii c) : String.utf8EncodeChar c = [octet c] := by
  have hle : c.val.toNat ≤ 127 := Nat.le_of_lt_succ h
  simp only [String.utf8EncodeChar, if_pos hle]
  rfl

theorem utf8Size_ascii {c : Char} (h : IsAscii c) : c.utf8Size = 1 := by
  rw [← String.length_utf8EncodeChar, utf8EncodeChar_ascii h, List.length_singleton]

theorem utf8EncodeChar_high {c : Char} (h : ¬IsAscii c) :
    ∀ b ∈ String.utf8EncodeChar c, 128 ≤ b.toNat := by
  have hlt : ¬c.val.toNat ≤ 127 := by
    have : 128 ≤ c.val.toNat := Nat.le_of_not_lt h
    omega
  intro b hb
  simp only [String.utf8EncodeChar, if_neg hlt] at hb
  split at hb
  · simp only [List.mem_cons, List.not_mem_nil, or_false] at hb
    rcases hb with rfl | rfl <;> simp only [UInt8.toNat_ofNat'] <;> omega
  split at hb
  · simp only [List.mem_cons, List.not_mem_nil, or_false] at hb
    rcases hb with rfl | rfl | rfl <;> simp only [UInt8.toNat_ofNat'] <;> omega
  · simp only [List.mem_cons, List.not_mem_nil, or_false] at hb
    rcases hb with rfl | rfl | rfl | rfl <;> simp only [UInt8.toNat_ofNat'] <;> omega

theorem octet_toNat {c : Char} (h : IsAscii c) : (octet c).toNat = c.toNat := by
  have : c.toNat < 128 := h
  simp only [octet, UInt8.toNat_ofNat']
  omega

theorem octet_inj {c d : Char} (hc : IsAscii c) (hd : IsAscii d) : octet c = octet d ↔ c = d := by
  refine ⟨fun h => ?_, fun h => h ▸ rfl⟩
  rw [← UInt8.toNat_inj, octet_toNat hc, octet_toNat hd] at h
  exact Char.toNat_inj.mp h

theorem ne_octet_of_high {b : UInt8} (hb : 128 ≤ b.toNat) {c : Char} (hc : IsAscii c) :
    b ≠ octet c := by
  rintro rfl
  rw [octet_toNat hc] at hb
  exact absurd hc (Nat.not_lt.mpr hb)

/-- The first octet of a single-octet character is where the character first stands. -/
theorem findIdx?_octets {x : Char} (hx : IsAscii x) {front : List Char} (hfront : x ∉ front)
    (rest : List Char) :
    (octets (front ++ x :: rest)).findIdx? (· == octet x) = some (utf8Size front) ∧
      (octets front).findIdx? (· == octet x) = none := by
  have hother : ∀ b ∈ octets front, (b == octet x) = false := by
    intro b hb
    obtain ⟨c, hc, hb⟩ := List.mem_flatMap.mp hb
    rw [beq_eq_false_iff_ne]
    by_cases hascii : IsAscii c
    · rw [utf8EncodeChar_ascii hascii, List.mem_singleton] at hb
      rw [hb, Ne, octet_inj hascii hx]
      rintro rfl
      exact hfront hc
    · exact ne_octet_of_high (utf8EncodeChar_high hascii b hb) hx
  have hnone : (octets front).findIdx? (· == octet x) = none := by
    rw [List.findIdx?_eq_none_iff]
    exact hother
  refine ⟨?_, hnone⟩
  rw [octets_append, octets_cons, utf8EncodeChar_ascii hx, List.findIdx?_append, hnone]
  simp [List.findIdx?_cons]

theorem octetsIn?_octets {cs before literal after : List Char} {start stop : Nat}
    (hcs : cs = before ++ (literal ++ after)) (hstart : start = utf8Size before)
    (hstop : stop = utf8Size before + utf8Size literal) :
    octetsIn? (octets cs) ⟨start, stop⟩ = some (octets literal) := by
  have hlength : (octets before).length = start := by rw [length_octets, hstart]
  have hboth : (octets before ++ octets literal).length = stop := by simp [hstop]
  have htext : octets cs = octets before ++ octets literal ++ octets after := by
    rw [hcs, octets_append, octets_append, List.append_assoc]
  have hbounds : start ≤ stop ∧ stop ≤ (octets cs).length := by
    simp only [htext, List.length_append] at hboth ⊢
    omega
  rw [octetsIn?, if_pos hbounds, htext, ← hboth, List.take_left, ← hlength, List.drop_left]

/-! ## Counting delimiters -/

def inString : Mode → Bool
  | .outside => false
  | _ => true

def isEscaped : Mode → Bool
  | .escaped => true
  | _ => false

/-- The mode behind a character that only ends an escape. -/
def calmed : Mode → Mode
  | .escaped => .inside
  | mode => mode

/-- The count from a mode on. -/
def countFrom (opening closing : Char) (depth : Nat) (mode : Mode) (n : Nat)
    (bytes : List UInt8) : Option (Except ScanError Nat) :=
  closing? (octet opening) (octet closing) depth (inString mode) (isEscaped mode) n bytes

/-- The offset of the last octet that a scan passed, when the first one has the offset `n`. -/
def lastOffset (n : Nat) (r : Except ScanError (List Char × List Char)) : Except ScanError Nat :=
  r.map fun (passed, _) => n + utf8Size passed - 1

theorem lastOffset_keep (c : Char) (n : Nat) (r : Except ScanError (List Char × List Char)) :
    lastOffset n (keep c r) = lastOffset (n + c.utf8Size) r := by
  cases r with
  | error e => rfl
  | ok found => simp [lastOffset, keep, Except.map, Nat.add_assoc]

variable {opening ending : Char}

theorem ascii_of_delimiters (h : Delimiters opening ending) :
    IsAscii opening ∧ IsAscii ending := by
  cases h <;> decide

theorem ascii_quote_backslash : IsAscii '"' ∧ IsAscii '\\' := by decide

theorem countFrom_inside (depth n : Nat) (b : UInt8) (rest : List UInt8) :
    countFrom opening ending depth .inside n (b :: rest) =
      countFrom opening ending depth
        (if b = octet '\\' then .escaped else if b = octet '"' then .outside else .inside)
        (n + 1) rest := by
  have hdiffer : octet '\\' ≠ octet '"' := by decide
  simp only [countFrom, inString, isEscaped, closing?]
  by_cases hbackslash : b = octet '\\'
  · simp [hbackslash, bne_iff_ne.mpr hdiffer]
  by_cases hquote : b = octet '"'
  · simp [hquote, hdiffer.symm, beq_false_of_ne hdiffer.symm]
  · simp [hbackslash, hquote, bne_iff_ne.mpr hquote, beq_false_of_ne hbackslash]

theorem countFrom_outside (depth n : Nat) (b : UInt8) (rest : List UInt8) :
    countFrom opening ending (depth + 1) .outside n (b :: rest) =
      if b = octet '"' then countFrom opening ending (depth + 1) .inside (n + 1) rest
      else if b = octet opening then
        countFrom opening ending (depth + 2) .outside (n + 1) rest
      else if b = octet ending then
        if depth = 0 then some (.ok n) else countFrom opening ending depth .outside (n + 1) rest
      else countFrom opening ending (depth + 1) .outside (n + 1) rest := by
  simp only [countFrom, inString, isEscaped, closing?]
  cases depth <;> simp

theorem countFrom_high_cons (hopening : IsAscii opening) (hending : IsAscii ending) (depth : Nat)
    (mode : Mode) (n : Nat) {b : UInt8} (hb : 128 ≤ b.toNat) (rest : List UInt8) :
    countFrom opening ending (depth + 1) mode n (b :: rest) =
      countFrom opening ending (depth + 1) (calmed mode) (n + 1) rest := by
  have hquote := ne_octet_of_high hb ascii_quote_backslash.1
  have hbackslash := ne_octet_of_high hb ascii_quote_backslash.2
  cases mode with
  | escaped => rfl
  | inside =>
    rw [countFrom_inside, if_neg hbackslash, if_neg hquote]
    rfl
  | outside =>
    rw [countFrom_outside, if_neg hquote, if_neg (ne_octet_of_high hb hopening),
      if_neg (ne_octet_of_high hb hending)]
    rfl

theorem countFrom_high (hopening : IsAscii opening) (hending : IsAscii ending) (depth : Nat)
    (mode : Mode) (n : Nat) {bytes : List UInt8} (hbytes : ∀ b ∈ bytes, 128 ≤ b.toNat)
    (hne : bytes ≠ []) (rest : List UInt8) :
    countFrom opening ending (depth + 1) mode n (bytes ++ rest) =
      countFrom opening ending (depth + 1) (calmed mode) (n + bytes.length) rest := by
  induction bytes generalizing mode n with
  | nil => exact absurd rfl hne
  | cons b bytes ih =>
    have hb := hbytes b List.mem_cons_self
    have htail : ∀ d ∈ bytes, 128 ≤ d.toNat := fun d hd => hbytes d (List.mem_cons_of_mem b hd)
    have hcalm : calmed (calmed mode) = calmed mode := by cases mode <;> rfl
    rw [List.cons_append, countFrom_high_cons hopening hending depth mode n hb]
    by_cases hnil : bytes = []
    · rw [hnil]
      rfl
    · rw [ih _ _ htail hnil, hcalm, List.length_cons, Nat.add_assoc, Nat.add_comm 1]

theorem close_high (hopening : IsAscii opening) (hending : IsAscii ending) (depth : Nat)
    (mode : Mode) {c : Char} (hc : ¬IsAscii c) (rest : List Char) :
    close opening ending depth mode (c :: rest) =
      keep c (close opening ending depth (calmed mode) rest) := by
  have hne : ∀ {d : Char}, IsAscii d → c ≠ d := fun hd heq => hc (heq ▸ hd)
  have hquote := hne ascii_quote_backslash.1
  have hbackslash := hne ascii_quote_backslash.2
  cases mode with
  | escaped => rfl
  | inside => simp [close, calmed, hquote, hbackslash]
  | outside => simp [close, calmed, hquote, hne hopening, hne hending]

/-- Counting over octets ends at the last octet of what a scan over characters passes. -/
theorem countFrom_octets (hopening : IsAscii opening) (hending : IsAscii ending) (depth : Nat)
    (mode : Mode) (n : Nat) (cs : List Char) :
    countFrom opening ending (depth + 1) mode n (octets cs) =
      some (lastOffset n (close opening ending (depth + 1) mode cs)) := by
  -- A single octet is one step of both; the octets of any other character only end an escape.
  induction cs generalizing depth mode n with
  | nil => cases mode <;> rfl
  | cons c cs ih =>
    by_cases hc : IsAscii c
    · have hsize := utf8Size_ascii hc
      have hnext : ∀ depth mode, lastOffset n (keep c (close opening ending (depth + 1) mode cs)) =
          lastOffset (n + 1) (close opening ending (depth + 1) mode cs) := by
        intro depth mode
        rw [lastOffset_keep, hsize]
      rw [octets_cons, utf8EncodeChar_ascii hc, List.singleton_append]
      cases mode with
      | escaped =>
        rw [close, hnext, ← ih]
        rfl
      | inside =>
        rw [countFrom_inside, close, hnext, ← ih]
        simp only [octet_inj hc ascii_quote_backslash.1, octet_inj hc ascii_quote_backslash.2]
      | outside =>
        rw [countFrom_outside, close]
        simp only [octet_inj hc ascii_quote_backslash.1, octet_inj hc hopening,
          octet_inj hc hending]
        by_cases hquote : c = '"'
        · rw [if_pos hquote, if_pos hquote, hnext, ← ih]
        by_cases hopen : c = opening
        · rw [if_neg hquote, if_neg hquote, if_pos hopen, if_pos hopen, hnext, ← ih]
        by_cases hclose : c = ending
        · rw [if_neg hquote, if_neg hquote, if_neg hopen, if_neg hopen, if_pos hclose,
            if_pos hclose]
          cases depth with
          | zero => simp [lastOffset, Except.map, utf8Size, hsize]
          | succ depth =>
            rw [if_neg (by omega), if_neg (by omega), Nat.add_sub_cancel, hnext, ← ih]
        · rw [if_neg hquote, if_neg hquote, if_neg hopen, if_neg hopen, if_neg hclose,
            if_neg hclose, hnext, ← ih]
    · have hne : String.utf8EncodeChar c ≠ [] := String.utf8EncodeChar_ne_nil
      rw [octets_cons, countFrom_high hopening hending _ _ _ (utf8EncodeChar_high hc) hne, ih,
        close_high hopening hending _ _ hc, lastOffset_keep, String.length_utf8EncodeChar]

theorem utf8Size_pos_of_close {depth : Nat} {mode : Mode} {cs passed rest : List Char}
    (h : close opening ending depth mode cs = .ok (passed, rest)) : 0 < utf8Size passed := by
  obtain ⟨c, more, rfl⟩ := List.exists_cons_of_ne_nil (Balanced.eq_of_close h).2
  exact Nat.lt_of_lt_of_le c.utf8Size_pos (Nat.le_add_right _ _)

/-! ## Whole scans -/

theorem exists_line (cs : List Char) : ∃ line tail, cs = line ++ tail ∧ '\n' ∉ line ∧
    (tail = [] ∨ ∃ more, tail = '\n' :: more) := by
  by_cases h : '\n' ∈ cs
  · obtain ⟨line, more, rfl, hline⟩ := List.eq_append_cons_of_mem h
    exact ⟨line, _, rfl, hline, .inr ⟨more, rfl⟩⟩
  · exact ⟨cs, [], (List.append_nil cs).symm, h, .inl rfl⟩

theorem openOnLine_eq_none {line tail : List Char} (hline : '\n' ∉ line) (hopen : opening ∉ line)
    (htail : tail = [] ∨ ∃ more, tail = '\n' :: more) :
    openOnLine opening (line ++ tail) = none := by
  induction line with
  | nil =>
    rcases htail with rfl | ⟨more, rfl⟩
    · rfl
    · rfl
  | cons c line ih =>
    obtain ⟨hc, hline⟩ := List.ne_and_not_mem_of_not_mem_cons hline
    obtain ⟨hd, hopen⟩ := List.ne_and_not_mem_of_not_mem_cons hopen
    rw [List.cons_append, openOnLine, if_neg hc.symm, if_neg hd.symm, ih hline hopen]
    rfl

def extentFrom (origin : Nat) (s : Balanced.Span) : Extent :=
  ⟨origin + utf8Size s.before, origin + utf8Size s.before + utf8Size s.literal⟩

/-- The octets behind a character that is a single octet. -/
theorem octetsIn?_behind {c : Char} (hc : IsAscii c) (before mid rest : List Char) :
    octetsIn? (octets (before ++ (mid ++ c :: rest)))
      ⟨utf8Size before + utf8Size mid + 1, (octets (before ++ (mid ++ c :: rest))).length⟩ =
        some (octets rest) := by
  have hsplit : before ++ (mid ++ c :: rest) = before ++ (mid ++ [c]) ++ (rest ++ []) := by simp
  exact octetsIn?_octets hsplit (by simp [utf8Size_ascii hc, Nat.add_assoc])
    (by simp [Nat.add_assoc])

/-- The first line of what follows an offset ends at the first line feed or at the end. -/
theorem lineEnd_octets {line tail : List Char} (hline : '\n' ∉ line)
    (htail : tail = [] ∨ ∃ more, tail = '\n' :: more) (before : List Char) :
    (((octets (line ++ tail)).findIdx? (· == octet '\n')).map (utf8Size before + ·)).getD
      (octets (before ++ (line ++ tail))).length = utf8Size before + utf8Size line := by
  rcases htail with rfl | ⟨more, rfl⟩
  · rw [List.append_nil, (findIdx?_octets (by decide) hline []).2]
    simp
  · rw [(findIdx?_octets (by decide) hline more).1]
    rfl

/-- A scan of octets from between two characters has an answer, that of the scan of the text which
stands there. -/
theorem balanced?_octets (hopening : IsAscii opening) (hending : IsAscii ending)
    (before rest : List Char) :
    balanced? (octets (before ++ rest)) (utf8Size before) (octet opening) (octet ending) =
      some ((Balanced.span opening ending rest).map (extentFrom (utf8Size before))) := by
  obtain ⟨line, tail, rfl, hline, htail⟩ := exists_line rest
  have hrest : octetsIn? (octets (before ++ (line ++ tail)))
      ⟨utf8Size before, (octets (before ++ (line ++ tail))).length⟩ =
        some (octets (line ++ tail)) :=
    octetsIn?_octets (by rw [List.append_nil]) rfl (by simp)
  have hlineOctets : octetsIn? (octets (before ++ (line ++ tail)))
      ⟨utf8Size before, utf8Size before + utf8Size line⟩ = some (octets line) :=
    octetsIn?_octets rfl rfl rfl
  simp only [balanced?, hrest, lineEnd_octets hline htail, hlineOctets, Option.bind_eq_bind,
    Option.bind_some]
  by_cases hmem : opening ∈ line
  · obtain ⟨mid, more, rfl, hmid⟩ := List.eq_append_cons_of_mem hmem
    have hmidLine : '\n' ∉ mid := fun hmem => hline (List.mem_append_left _ hmem)
    have hne : opening ≠ '\n' := by
      rintro rfl
      exact hline (List.mem_append_right _ List.mem_cons_self)
    have hcount := countFrom_octets hopening hending 0 .outside 0 (more ++ tail)
    simp only [countFrom, inString, isEscaped] at hcount
    rw [(findIdx?_octets hopening hmid more).1, List.append_assoc, List.cons_append]
    simp only [octetsIn?_behind hopening, hcount, Option.bind_some]
    rw [Balanced.span, Balanced.openOnLine_append hmidLine hmid hne]
    cases hclose : close opening ending 1 .outside (more ++ tail) with
    | error e => simp [hclose, lastOffset, Except.map]
    | ok found =>
      have hpos := utf8Size_pos_of_close hclose
      simp [hclose, lastOffset, Except.map, extentFrom, utf8Size_ascii hopening]
      omega
  · rw [(findIdx?_octets hopening hmem []).2, Balanced.span, openOnLine_eq_none hline hmem htail]
    rfl

end Agentry.Sliced
