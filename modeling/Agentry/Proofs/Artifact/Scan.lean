import Agentry.Proofs.Json.Grammar
import Mathlib.Data.Bool.AllAny
/-!
# Balanced scans of documents

A scan looks at one pair of delimiters and at strings. Over a whole document its count comes back to
where it was, and over what follows an opening delimiter it comes to one less. So a scan that starts
at a document's own opening delimiter ends at its closing one, whatever follows.
-/
namespace Agentry.Balanced

open Json (Blank NameText Phrase StringBody Written)

/-- The two pairs of delimiters that a document nests. -/
inductive Delimiters : Char → Char → Prop where
  | brackets : Delimiters '[' ']'
  | braces : Delimiters '{' '}'

variable {opening closing : Char}

/-- A scan that goes on with some delimiters open, or has ended. -/
def resume (opening closing : Char) (depth : Nat) (rest : List Char) :
    Except ScanError (List Char × List Char) :=
  if depth = 0 then .ok ([], rest) else close opening closing depth .outside rest

theorem resume_succ (depth : Nat) (rest : List Char) :
    resume opening closing (depth + 1) rest = close opening closing (depth + 1) .outside rest := by
  simp [resume]

/-- A scan passes over the text with its count unchanged. -/
def Neutral (opening closing : Char) (t : List Char) : Prop :=
  ∀ depth rest, close opening closing (depth + 1) .outside (t ++ rest) =
    keepAll t (close opening closing (depth + 1) .outside rest)

/-- A scan passes over the text and finds the last open delimiter closed at its end. -/
def Closes (opening closing : Char) (t : List Char) : Prop :=
  ∀ depth rest, close opening closing (depth + 1) .outside (t ++ rest) =
    keepAll t (resume opening closing depth rest)

theorem Neutral.nil : Neutral opening closing [] := fun _ _ => rfl

theorem Neutral.append {a b : List Char} (ha : Neutral opening closing a)
    (hb : Neutral opening closing b) : Neutral opening closing (a ++ b) := by
  intro depth rest
  rw [List.append_assoc, ha, hb, keepAll_append]

theorem Neutral.append_closes {a b : List Char} (ha : Neutral opening closing a)
    (hb : Closes opening closing b) : Closes opening closing (a ++ b) := by
  intro depth rest
  rw [List.append_assoc, ha, hb, keepAll_append]

theorem Neutral.chars {t : List Char} (h : ∀ c ∈ t, c ≠ '"' ∧ c ≠ opening ∧ c ≠ closing) :
    Neutral opening closing t := by
  intro depth rest
  induction t with
  | nil => rfl
  | cons c t ih =>
    obtain ⟨hquote, hopen, hclose⟩ := h c List.mem_cons_self
    rw [List.cons_append, close, if_neg hquote, if_neg hopen, if_neg hclose,
      ih fun d hd => h d (List.mem_cons_of_mem c hd)]
    rfl

theorem Neutral.single {c : Char} (h : c ≠ '"' ∧ c ≠ opening ∧ c ≠ closing) :
    Neutral opening closing [c] := by
  apply Neutral.chars
  intro d hd
  rw [List.mem_singleton.mp hd]
  exact h

theorem Neutral.string {body : List Char} {ps : List Json.Piece} (h : StringBody body ps) :
    Neutral opening closing ('"' :: (body ++ ['"'])) := by
  intro depth rest
  rw [List.cons_append, List.append_assoc]
  exact close_string h (depth + 1) rest

/-- What a scan makes of what follows an opening delimiter: its end, when the scan looks for that
kind of delimiter, and nothing otherwise. -/
def PassesInner (opening closing own : Char) (t : List Char) : Prop :=
  if opening = own then Closes opening closing t else Neutral opening closing t

theorem Neutral.append_inner {own : Char} {a b : List Char} (ha : Neutral opening closing a)
    (hb : PassesInner opening closing own b) : PassesInner opening closing own (a ++ b) := by
  unfold PassesInner at hb ⊢
  split
  · rename_i h
    exact ha.append_closes (by rwa [if_pos h] at hb)
  · rename_i h
    exact ha.append (by rwa [if_neg h] at hb)

theorem PassesInner.single (h : Delimiters opening closing) {own ending : Char}
    (hown : Delimiters own ending) : PassesInner opening closing own [ending] := by
  have hsame : ∀ {a b : Char}, Delimiters a b → Closes a b [b] := by
    intro a b hab depth rest
    have hne : b ≠ '"' ∧ b ≠ a := by
      cases hab <;> decide
    rw [List.cons_append, List.nil_append, close, if_neg hne.1, if_neg hne.2, if_pos rfl]
    cases depth with
    | zero => rfl
    | succ depth =>
      rw [if_neg (by omega), Nat.add_sub_cancel, resume_succ]
      rfl
  cases h with
  | brackets =>
    cases hown with
    | brackets => exact hsame .brackets
    | braces => exact Neutral.chars (List.all_iff_forall_prop.mp (by decide))
  | braces =>
    cases hown with
    | brackets => exact Neutral.chars (List.all_iff_forall_prop.mp (by decide))
    | braces => exact hsame .braces

theorem PassesInner.cons (h : Delimiters opening closing) {own ending : Char}
    (hown : Delimiters own ending) {t : List Char} (ht : PassesInner opening closing own t) :
    Neutral opening closing (own :: t) := by
  unfold PassesInner at ht
  split at ht
  · rename_i hsame
    subst hsame
    intro depth rest
    have hquote : opening ≠ '"' := by
      cases h <;> decide
    rw [List.cons_append, close, if_neg hquote, if_pos rfl, ht, resume_succ]
    rfl
  · rename_i hother
    have hsingle : Neutral opening closing [own] := by
      apply Neutral.single
      cases h <;> cases hown <;> first | exact absurd rfl hother | decide
    exact hsingle.append ht

/-- What a scan for one pair of delimiters makes of a phrase. -/
def Passes (opening closing : Char) : Phrase → List Char → Prop
  | .node _, t => Neutral opening closing t
  | .items _, t => PassesInner opening closing '[' t
  | .members _, t => PassesInner opening closing '{' t

theorem Neutral.blank (h : Delimiters opening closing) {gap : List Char} (hgap : Blank gap) :
    Neutral opening closing gap := by
  apply Neutral.chars
  intro c hc
  have hspace := hgap c hc
  simp only [Json.isSpace, Bool.or_eq_true, decide_eq_true_eq] at hspace
  cases h <;> rcases hspace with ((rfl | rfl) | rfl) | rfl <;> decide

theorem Neutral.name (h : Delimiters opening closing) {name : Option String} {label : List Char}
    (hname : NameText name label) : Neutral opening closing label := by
  cases hname with
  | @intro body gap ps hbody hgap =>
    have hcolon : Neutral opening closing [':'] := by
      apply Neutral.single
      cases h <;> decide
    have hsplit : '"' :: (body ++ '"' :: (gap ++ [':'])) =
        '"' :: (body ++ ['"']) ++ (gap ++ [':']) := by
      simp
    rw [hsplit]
    exact (Neutral.string hbody).append ((Neutral.blank h hgap).append hcolon)

theorem Neutral.comma (h : Delimiters opening closing) : Neutral opening closing [','] := by
  apply Neutral.single
  cases h <;> decide

theorem passes_of_written (h : Delimiters opening closing) {p : Phrase} {t : List Char}
    (ht : Written p t) : Passes opening closing p t := by
  induction ht with
  | null => exact Neutral.chars (List.all_iff_forall_prop.mp (by cases h <;> decide))
  | bool b => exact Neutral.chars (List.all_iff_forall_prop.mp (by cases h <;> cases b <;> decide))
  | number hn =>
    apply Neutral.chars
    intro c hc
    have hchar := hn.all_isNumeralChar c hc
    cases h <;> refine ⟨?_, ?_, ?_⟩ <;> rintro rfl <;> exact absurd hchar (by decide)
  | string hbody => exact Neutral.string hbody
  | emptyArray hgap =>
    exact ((Neutral.blank h hgap).append_inner (.single h .brackets)).cons h .brackets
  | array _ ih => exact ih.cons h .brackets
  | emptyObject hgap =>
    exact ((Neutral.blank h hgap).append_inner (.single h .braces)).cons h .braces
  | object _ ih => exact ih.cons h .braces
  | lastItem hbefore _ hafter ih =>
    exact (Neutral.blank h hbefore).append_inner
      (ih.append_inner ((Neutral.blank h hafter).append_inner (.single h .brackets)))
  | moreItems hbefore _ hafter _ ih ihmore =>
    exact (Neutral.blank h hbefore).append_inner
      (ih.append_inner ((Neutral.blank h hafter).append_inner
        ((Neutral.comma h).append_inner ihmore)))
  | lastMember hbefore hname hgap _ hafter ih =>
    exact (Neutral.blank h hbefore).append_inner ((Neutral.name h hname).append_inner
      ((Neutral.blank h hgap).append_inner
        (ih.append_inner ((Neutral.blank h hafter).append_inner (.single h .braces)))))
  | moreMembers hbefore hname hgap _ hafter _ ih ihmore =>
    exact (Neutral.blank h hbefore).append_inner ((Neutral.name h hname).append_inner
      ((Neutral.blank h hgap).append_inner (ih.append_inner
        ((Neutral.blank h hafter).append_inner ((Neutral.comma h).append_inner ihmore)))))

theorem PassesInner.closes {t : List Char} (ht : PassesInner opening closing opening t) :
    Closes opening closing t := by
  unfold PassesInner at ht
  rwa [if_pos rfl] at ht

theorem closes_of_written (h : Delimiters opening closing) {n : Json.Node} {t : List Char}
    (ht : Written (.node n) (opening :: t)) : Closes opening closing t := by
  generalize hu : opening :: t = u at ht
  cases ht with
  | null => cases h <;> cases hu
  | bool b => cases h <;> cases b <;> cases hu
  | number hn =>
    subst hu
    have hchar := hn.all_isNumeralChar opening List.mem_cons_self
    cases h <;> exact absurd hchar (by decide)
  | string _ => cases h <;> cases hu
  | emptyArray hgap =>
    obtain ⟨rfl, rfl⟩ := List.cons.inj hu
    exact ((Neutral.blank h hgap).append_inner (.single h (by cases h; exact .brackets))).closes
  | array ht =>
    obtain ⟨rfl, rfl⟩ := List.cons.inj hu
    exact (passes_of_written h ht).closes
  | emptyObject hgap =>
    obtain ⟨rfl, rfl⟩ := List.cons.inj hu
    exact ((Neutral.blank h hgap).append_inner (.single h (by cases h; exact .braces))).closes
  | object ht =>
    obtain ⟨rfl, rfl⟩ := List.cons.inj hu
    exact (passes_of_written h ht).closes

theorem openOnLine_append {mid : List Char} (hline : '\n' ∉ mid) (hopen : opening ∉ mid)
    (hne : opening ≠ '\n') (rest : List Char) :
    openOnLine opening (mid ++ opening :: rest) = some (mid, rest) := by
  induction mid with
  | nil => simp [openOnLine, hne]
  | cons c mid ih =>
    obtain ⟨hc, hmid⟩ : '\n' ≠ c ∧ '\n' ∉ mid := by simpa using hline
    obtain ⟨hd, hopen⟩ : opening ≠ c ∧ opening ∉ mid := by simpa using hopen
    rw [List.cons_append, openOnLine, if_neg (Ne.symm hc), if_neg (Ne.symm hd), ih hmid hopen]
    rfl

/-- A scan isolates a document that begins with the delimiter the scan looks for. -/
theorem span_written (h : Delimiters opening closing) {n : Json.Node} {mid t : List Char}
    (ht : Written (.node n) (opening :: t)) (hline : '\n' ∉ mid) (hopen : opening ∉ mid)
    (rest : List Char) :
    span opening closing (mid ++ (opening :: t ++ rest)) = .ok ⟨mid, opening :: t, rest⟩ := by
  have hne : opening ≠ '\n' := by
    cases h <;> decide
  have hcloses := closes_of_written h ht
  rw [span, List.cons_append, openOnLine_append hline hopen hne]
  simp only [hcloses 0 rest, resume, if_true, keepAll_ok, List.append_nil]

/-! ## Scans of a longer text -/

theorem keep_eq_ok {c : Char} {r : Except ScanError (List Char × List Char)}
    {passed rest : List Char} (h : keep c r = .ok (passed, rest)) :
    ∃ more, r = .ok (more, rest) ∧ passed = c :: more := by
  cases r with
  | error e => cases h
  | ok found =>
    obtain ⟨more, after⟩ := found
    cases h
    exact ⟨more, rfl, rfl⟩

/-- What a scan makes of a text that goes on: where it has ended it ends the same way, and where it
has not it passes the whole text before it ends. -/
def GoesOn (text rest : List Char) (short long : Except ScanError (List Char × List Char)) : Prop :=
  (∀ passed after, short = .ok (passed, after) → long = .ok (passed, after ++ rest)) ∧
    ∀ e, short = .error e → ∀ passed after, long = .ok (passed, after) →
      ∃ more, passed = text ++ more

theorem GoesOn.keep {c : Char} {text rest : List Char}
    {short long : Except ScanError (List Char × List Char)} (h : GoesOn text rest short long) :
    GoesOn (c :: text) rest (keep c short) (keep c long) := by
  constructor
  · intro passed after hshort
    obtain ⟨more, hmore, rfl⟩ := keep_eq_ok hshort
    rw [h.1 more after hmore]
    rfl
  · intro e hshort passed after hlong
    obtain ⟨more, hmore, rfl⟩ := keep_eq_ok hlong
    cases short with
    | ok found => cases hshort
    | error e' =>
      obtain ⟨tail, rfl⟩ := h.2 e' rfl more after hmore
      exact ⟨tail, rfl⟩

theorem close_goesOn (text rest : List Char) (depth : Nat) (mode : Mode) :
    GoesOn text rest (close opening closing depth mode text)
      (close opening closing depth mode (text ++ rest)) := by
  induction text generalizing depth mode with
  | nil =>
    refine ⟨fun passed after h => ?_, fun e _ passed after _ => ⟨passed, rfl⟩⟩
    rw [close] at h
    cases h
  | cons c text ih =>
    cases mode with
    | escaped => exact (ih depth .inside).keep
    | inside => exact (ih depth _).keep
    | outside =>
      rw [List.cons_append, close, close]
      -- Only a closing delimiter of the last open one ends the scan.
      split
      · exact (ih depth .inside).keep
      split
      · exact (ih (depth + 1) .outside).keep
      split
      · split
        · refine ⟨fun passed after h => ?_, fun e h => (by cases h)⟩
          cases h
          rfl
        · exact (ih (depth - 1) .outside).keep
      · exact (ih depth .outside).keep

theorem openOnLine_append_of_newline {cs : List Char} (h : '\n' ∈ cs) (rest : List Char) :
    openOnLine opening (cs ++ rest) =
      (openOnLine opening cs).map fun (before, after) => (before, after ++ rest) := by
  induction cs with
  | nil => cases h
  | cons c cs ih =>
    rw [List.cons_append, openOnLine, openOnLine]
    by_cases hc : c = '\n'
    · rw [if_pos hc, if_pos hc]
      rfl
    by_cases hopen : c = opening
    · rw [if_neg hc, if_neg hc, if_pos hopen, if_pos hopen]
      rfl
    have hmem : '\n' ∈ cs := (List.mem_cons.mp h).resolve_left (Ne.symm hc)
    rw [if_neg hc, if_neg hc, if_neg hopen, if_neg hopen, ih hmem, Option.map_map, Option.map_map]
    rfl

theorem eq_of_openOnLine {cs before after : List Char}
    (h : openOnLine opening cs = some (before, after)) :
    cs = before ++ opening :: after ∧ '\n' ∉ before := by
  induction cs generalizing before after with
  | nil => cases h
  | cons c cs ih =>
    rw [openOnLine] at h
    split at h
    · cases h
    rename_i hc
    split at h
    · rename_i hopen
      cases h
      exact ⟨by rw [hopen]; rfl, List.not_mem_nil⟩
    · obtain ⟨⟨b, a⟩, hfound, heq⟩ := Option.map_eq_some_iff.mp h
      cases heq
      obtain ⟨hcs, hb⟩ := ih hfound
      refine ⟨by rw [hcs]; rfl, ?_⟩
      simp only [List.mem_cons, not_or]
      exact ⟨Ne.symm hc, hb⟩

/-! ## What a scan passes -/

theorem eq_of_close {depth : Nat} {mode : Mode} {cs passed rest : List Char}
    (h : close opening closing depth mode cs = .ok (passed, rest)) :
    cs = passed ++ rest ∧ passed ≠ [] := by
  induction cs generalizing depth mode passed with
  | nil =>
    rw [close] at h
    cases h
  | cons c cs ih =>
    have hkeep : ∀ {depth mode}, keep c (close opening closing depth mode cs) = .ok (passed, rest) →
        c :: cs = passed ++ rest ∧ passed ≠ [] := by
      intro depth mode hr
      obtain ⟨more, hmore, rfl⟩ := keep_eq_ok hr
      exact ⟨by rw [(ih hmore).1, List.cons_append], List.cons_ne_nil c more⟩
    cases mode with
    | escaped => exact hkeep h
    | inside => exact hkeep h
    | outside =>
      rw [close] at h
      split at h
      · exact hkeep h
      split at h
      · exact hkeep h
      split at h
      · split at h
        · cases h
          exact ⟨rfl, List.cons_ne_nil c []⟩
        · exact hkeep h
      · exact hkeep h

/-- A scan splits its text, and its literal begins on the first line. -/
theorem eq_of_span {cs : List Char} {s : Span} (h : span opening closing cs = .ok s) :
    cs = s.before ++ (s.literal ++ s.after) ∧ '\n' ∉ s.before := by
  unfold span at h
  split at h
  · cases h
  · rename_i before rest hopen
    split at h
    · rename_i passed after hclose
      cases h
      obtain ⟨hcs, hbefore⟩ := eq_of_openOnLine hopen
      refine ⟨?_, hbefore⟩
      rw [hcs, (eq_of_close hclose).1, List.cons_append]
    · cases h

end Agentry.Balanced
