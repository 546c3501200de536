import Agentry.Json.Decoder
import Agentry.Json.Printer
import Agentry.Proofs.Json.Numeral
import Agentry.Proofs.Json.Quote
/-!
# The grammar of documents

`Written` says which texts a document may have. Reading is sound and complete for it: what is read
without a break has been written that way, and what is written that way is read back, whatever
follows it. So a printer only has to show that its texts are written by the grammar.
-/
namespace Agentry.Json

/-- What a part of a text can stand for: a document, or what follows the opening bracket or the
opening brace of one. -/
inductive Phrase where
  | node (n : Node)
  | items (ns : List Node)
  | members (ms : List (Option String × Node))

open Json.Node in
/-- Reading takes a phrase whole and stops behind it. Behind a document there must be nothing that
could belong to a numeral. -/
def Phrase.ReadFrom : Phrase → List Char → Prop
  | .node n, t => ∀ fuel rest, 2 * t.length ≤ fuel → Numeral.Ends rest →
    readAt fuel (t ++ rest) = (n, some rest)
  | .items ns, t => ∀ fuel rest, 2 * t.length ≤ fuel → readItems fuel (t ++ rest) = (ns, some rest)
  | .members ms, t => ∀ fuel rest, 2 * t.length ≤ fuel →
    readMembers fuel (t ++ rest) = (ms, some rest)

def Blank (cs : List Char) : Prop := ∀ c ∈ cs, isSpace c = true

/-- The name of a member, with its quotes and its colon. -/
inductive NameText : Option String → List Char → Prop where
  | intro {body gap : List Char} {ps : List Piece} : StringBody body ps → Blank gap →
    NameText ((joinPieces ps).map String.ofList) ('"' :: (body ++ '"' :: (gap ++ [':'])))

inductive Written : Phrase → List Char → Prop where
  | null : Written (.node .null) nullText
  | bool (b : Bool) : Written (.node (.bool b)) (boolText b)
  | number {n : Numeral} {t : List Char} : n.NumeralText t → Written (.node (.number n)) t
  | string {body : List Char} {ps : List Piece} : StringBody body ps →
    Written (.node (.string ((joinPieces ps).map String.ofList))) ('"' :: (body ++ ['"']))
  | emptyArray {gap : List Char} : Blank gap → Written (.node (.array [])) ('[' :: (gap ++ [']']))
  | array {ns : List Node} {t : List Char} :
    Written (.items ns) t → Written (.node (.array ns)) ('[' :: t)
  | emptyObject {gap : List Char} : Blank gap → Written (.node (.object [])) ('{' :: (gap ++ ['}']))
  | object {ms : List (Option String × Node)} {t : List Char} :
    Written (.members ms) t → Written (.node (.object ms)) ('{' :: t)
  | lastItem {n : Node} {before t after : List Char} :
    Blank before → Written (.node n) t → Blank after →
      Written (.items [n]) (before ++ (t ++ (after ++ [']'])))
  | moreItems {n : Node} {ns : List Node} {before t after rest : List Char} :
    Blank before → Written (.node n) t → Blank after → Written (.items ns) rest →
      Written (.items (n :: ns)) (before ++ (t ++ (after ++ ',' :: rest)))
  | lastMember {name : Option String} {n : Node} {before label gap t after : List Char} :
    Blank before → NameText name label → Blank gap → Written (.node n) t → Blank after →
      Written (.members [(name, n)]) (before ++ (label ++ (gap ++ (t ++ (after ++ ['}'])))))
  | moreMembers {name : Option String} {n : Node} {ms : List (Option String × Node)}
    {before label gap t after rest : List Char} :
    Blank before → NameText name label → Blank gap → Written (.node n) t → Blank after →
      Written (.members ms) rest →
      Written (.members ((name, n) :: ms))
        (before ++ (label ++ (gap ++ (t ++ (after ++ ',' :: rest)))))

theorem Written.congr {p q : Phrase} {t u : List Char} (h : Written p t) (hp : p = q)
    (ht : t = u) : Written q u := hp ▸ ht ▸ h

/-! ## Blanks -/

theorem blank_nil : Blank [] := by
  intro c hc
  cases hc

theorem blank_space : Blank [' '] := by
  intro c hc
  rw [List.mem_singleton.mp hc]
  rfl

theorem skipSpace_blank {gap : List Char} (h : Blank gap) (rest : List Char) :
    skipSpace (gap ++ rest) = skipSpace rest :=
  List.dropWhile_append_of_pos h

theorem skipSpace_cons {c : Char} (h : isSpace c = false) (rest : List Char) :
    skipSpace (c :: rest) = c :: rest := by
  simp [skipSpace, h]

theorem exists_blank (cs : List Char) : ∃ gap, cs = gap ++ skipSpace cs ∧ Blank gap :=
  ⟨cs.takeWhile isSpace, by simp [skipSpace], fun c hc =>
    List.all_eq_true.mp List.all_takeWhile c hc⟩

theorem skipSpace_skipSpace (cs : List Char) : skipSpace (skipSpace cs) = skipSpace cs := by
  obtain ⟨gap, heq, hgap⟩ := exists_blank cs
  rw [← skipSpace_blank hgap (skipSpace cs), ← heq]

/-! ## The first character of a document -/

def startsNode (c : Char) : Bool :=
  c = '"' || c = '[' || c = '{' || c = '-' || isDigit c || c = 'n' || c = 't' || c = 'f'

theorem isSpace_of_startsNode {c : Char} (h : startsNode c = true) : isSpace c = false := by
  cases hs : isSpace c with
  | false => rfl
  | true =>
    simp only [isSpace, Bool.or_eq_true, decide_eq_true_eq] at hs
    rcases hs with ((rfl | rfl) | rfl) | rfl <;> exact absurd h (by decide)

theorem Written.head {n : Node} {t : List Char} (h : Written (.node n) t) :
    ∃ c cs, t = c :: cs ∧ startsNode c = true := by
  cases h with
  | null => exact ⟨'n', _, rfl, by decide⟩
  | bool b => cases b <;> exact ⟨_, _, rfl, by decide⟩
  | number h =>
    obtain ⟨c, cs, rfl, hc⟩ := h.head
    refine ⟨c, cs, rfl, ?_⟩
    rcases hc with rfl | hdigit
    · decide
    · simp [startsNode, hdigit]
  | string _ => exact ⟨'"', _, rfl, by decide⟩
  | emptyArray _ => exact ⟨'[', _, rfl, by decide⟩
  | array _ => exact ⟨'[', _, rfl, by decide⟩
  | emptyObject _ => exact ⟨'{', _, rfl, by decide⟩
  | object _ => exact ⟨'{', _, rfl, by decide⟩

theorem Written.skipSpace_append {n : Node} {before t : List Char} (hbefore : Blank before)
    (h : Written (.node n) t) (rest : List Char) :
    skipSpace (before ++ (t ++ rest)) = t ++ rest := by
  obtain ⟨c, cs, rfl, hc⟩ := h.head
  rw [skipSpace_blank hbefore, List.cons_append, skipSpace_cons (isSpace_of_startsNode hc)]

theorem Written.items_head {ns : List Node} {t : List Char} (h : Written (.items ns) t)
    (rest : List Char) : ∃ c cs, skipSpace (t ++ rest) = c :: cs ∧ startsNode c = true := by
  cases h with
  | lastItem hbefore h _ =>
    obtain ⟨c, cs, rfl, hc⟩ := h.head
    simp only [List.append_assoc]
    exact ⟨c, _, h.skipSpace_append hbefore _, hc⟩
  | moreItems hbefore h _ _ =>
    obtain ⟨c, cs, rfl, hc⟩ := h.head
    simp only [List.append_assoc]
    exact ⟨c, _, h.skipSpace_append hbefore _, hc⟩

theorem NameText.skipSpace_append {name : Option String} {before label : List Char}
    (hbefore : Blank before) (h : NameText name label) (rest : List Char) :
    skipSpace (before ++ (label ++ rest)) = label ++ rest := by
  have hquote : isSpace '"' = false := by decide
  cases h with
  | intro _ _ => rw [skipSpace_blank hbefore, List.cons_append, skipSpace_cons hquote]

theorem Written.members_head {ms : List (Option String × Node)} {t : List Char}
    (h : Written (.members ms) t) (rest : List Char) : ∃ cs, skipSpace (t ++ rest) = '"' :: cs := by
  have hname : ∀ {name before label} (more : List Char), Blank before → NameText name label →
      ∃ cs, skipSpace (before ++ (label ++ more)) = '"' :: cs := by
    intro name before label more hbefore h
    rw [h.skipSpace_append hbefore]
    cases h with
    | intro _ _ => exact ⟨_, rfl⟩
  cases h with
  | lastMember hbefore h _ _ _ =>
    simp only [List.append_assoc]
    exact hname _ hbefore h
  | moreMembers hbefore h _ _ _ _ =>
    simp only [List.append_assoc]
    exact hname _ hbefore h

namespace Node

/-! ## What is written is read -/

theorem readAt_skipSpace (fuel : Nat) (cs : List Char) :
    readAt fuel (skipSpace cs) = readAt fuel cs := by
  cases fuel with
  | zero => rfl
  | succ fuel => simp only [readAt, skipSpace_skipSpace]

theorem readItems_skipSpace (fuel : Nat) (cs : List Char) :
    readItems fuel (skipSpace cs) = readItems fuel cs := by
  cases fuel with
  | zero => rfl
  | succ fuel => simp only [readItems, readAt_skipSpace]

theorem readMembers_skipSpace (fuel : Nat) (cs : List Char) :
    readMembers fuel (skipSpace cs) = readMembers fuel cs := by
  cases fuel with
  | zero => rfl
  | succ fuel => simp only [readMembers, skipSpace_skipSpace]

theorem readAt_scalar {t : List Char} {c : Char} {cs : List Char} (ht : t = c :: cs)
    (hspace : isSpace c = false) (harray : c ≠ '[') (hobject : c ≠ '{') (fuel : Nat) :
    readAt (fuel + 1) t = readScalar t := by
  subst ht
  rw [readAt, skipSpace_cons hspace]
  split
  · rename_i heq
    exact absurd (List.cons.inj heq).1 harray
  · rename_i heq
    exact absurd (List.cons.inj heq).1 hobject
  · rfl

theorem ends_cons {c : Char} (h : isSpace c = true ∨ c = ',' ∨ c = ']' ∨ c = '}')
    (rest : List Char) : Numeral.Ends (c :: rest) := by
  intro d hd
  obtain rfl : c = d := by simpa using hd
  simp only [isSpace, Bool.or_eq_true, decide_eq_true_eq] at h
  rcases h with (((rfl | rfl) | rfl) | rfl) | rfl | rfl | rfl <;> decide

theorem ends_of_blank {gap : List Char} (hgap : Blank gap) : Numeral.Ends gap := by
  cases gap with
  | nil =>
    intro d hd
    cases hd
  | cons g gap => exact ends_cons (Or.inl (hgap g List.mem_cons_self)) gap

theorem ends_blank_append {gap : List Char} (hgap : Blank gap) {c : Char}
    (hc : c = ',' ∨ c = ']' ∨ c = '}') (rest : List Char) : Numeral.Ends (gap ++ c :: rest) := by
  cases gap with
  | nil => exact ends_cons (Or.inr hc) rest
  | cons g gap => exact ends_cons (Or.inl (hgap g List.mem_cons_self)) _

theorem readScalar_number {n : Numeral} {t rest : List Char} (h : n.NumeralText t)
    (hr : Numeral.Ends rest) : readScalar (t ++ rest) = (.number n, some rest) := by
  have hread := h.read_append hr
  obtain ⟨c, cs, rfl, hc⟩ := h.head
  have hne : ∀ d : Char, d ≠ '-' → isDigit d = false → c ≠ d :=
    fun d => Numeral.ne_of_sign_or_digit hc
  rw [List.cons_append] at hread ⊢
  rw [readScalar, hread]
  · rfl
  · intro _ heq
    exact hne '"' (by decide) (by decide) (List.cons.inj heq).1
  · intro _ heq
    exact hne 'n' (by decide) (by decide) (List.cons.inj heq).1
  · intro _ heq
    exact hne 't' (by decide) (by decide) (List.cons.inj heq).1
  · intro _ heq
    exact hne 'f' (by decide) (by decide) (List.cons.inj heq).1

theorem readName_append {name : Option String} {label : List Char} (h : NameText name label)
    (rest : List Char) : readName (label ++ rest) = some (name, rest) := by
  cases h with
  | intro hbody hgap =>
    have hcolon : isSpace ':' = false := by decide
    simp [readName, unquote, hbody.readPieces_append, skipSpace_blank hgap, skipSpace_cons hcolon]

theorem readItems_step {n : Node} {before t after rest : List Char} (hbefore : Blank before)
    (h : Written (.node n) t) (ih : (Phrase.node n).ReadFrom t) (hafter : Blank after) {c : Char}
    (hc : c = ',' ∨ c = ']' ∨ c = '}') {fuel : Nat} (hfuel : 2 * t.length ≤ fuel) :
    readAt fuel (before ++ (t ++ (after ++ c :: rest))) = (n, some (after ++ c :: rest)) := by
  rw [← readAt_skipSpace, h.skipSpace_append hbefore]
  exact ih fuel _ hfuel (ends_blank_append hafter hc rest)

theorem readFrom_items_last {n : Node} {before t after : List Char} (hbefore : Blank before)
    (h : Written (.node n) t) (ih : (Phrase.node n).ReadFrom t) (hafter : Blank after) :
    (Phrase.items [n]).ReadFrom (before ++ (t ++ (after ++ [']']))) := by
  intro fuel rest hfuel
  simp only [List.length_append, List.length_cons, List.length_nil] at hfuel
  obtain ⟨f, rfl⟩ : ∃ f, fuel = f + 1 := ⟨fuel - 1, by omega⟩
  have hclose : isSpace ']' = false := by decide
  simp only [List.append_assoc, List.cons_append, List.nil_append]
  rw [readItems, readItems_step hbefore h ih hafter (by simp) (by omega)]
  simp only [skipSpace_blank hafter, skipSpace_cons hclose]

theorem readFrom_items_more {n : Node} {ns : List Node} {before t after more : List Char}
    (hbefore : Blank before) (h : Written (.node n) t) (ih : (Phrase.node n).ReadFrom t)
    (hafter : Blank after) (hmore : (Phrase.items ns).ReadFrom more) :
    (Phrase.items (n :: ns)).ReadFrom (before ++ (t ++ (after ++ ',' :: more))) := by
  intro fuel rest hfuel
  simp only [List.length_append, List.length_cons] at hfuel
  obtain ⟨f, rfl⟩ : ∃ f, fuel = f + 1 := ⟨fuel - 1, by omega⟩
  have hcomma : isSpace ',' = false := by decide
  simp only [List.append_assoc, List.cons_append]
  rw [readItems, readItems_step hbefore h ih hafter (by simp) (by omega)]
  simp only [skipSpace_blank hafter, skipSpace_cons hcomma, hmore f rest (by omega)]

theorem readFrom_members_last {name : Option String} {n : Node}
    {before label gap t after : List Char} (hbefore : Blank before) (hname : NameText name label)
    (hgap : Blank gap) (h : Written (.node n) t) (ih : (Phrase.node n).ReadFrom t)
    (hafter : Blank after) :
    (Phrase.members [(name, n)]).ReadFrom
      (before ++ (label ++ (gap ++ (t ++ (after ++ ['}']))))) := by
  intro fuel rest hfuel
  simp only [List.length_append, List.length_cons, List.length_nil] at hfuel
  obtain ⟨f, rfl⟩ : ∃ f, fuel = f + 1 := ⟨fuel - 1, by omega⟩
  have hclose : isSpace '}' = false := by decide
  simp only [List.append_assoc, List.cons_append, List.nil_append]
  rw [readMembers, hname.skipSpace_append hbefore, readName_append hname]
  simp only [readItems_step hgap h ih hafter (show '}' = ',' ∨ '}' = ']' ∨ '}' = '}' by simp)
    (show 2 * t.length ≤ f by omega), skipSpace_blank hafter, skipSpace_cons hclose]

theorem readFrom_members_more {name : Option String} {n : Node}
    {ms : List (Option String × Node)} {before label gap t after more : List Char}
    (hbefore : Blank before) (hname : NameText name label) (hgap : Blank gap)
    (h : Written (.node n) t) (ih : (Phrase.node n).ReadFrom t) (hafter : Blank after)
    (hmore : (Phrase.members ms).ReadFrom more) :
    (Phrase.members ((name, n) :: ms)).ReadFrom
      (before ++ (label ++ (gap ++ (t ++ (after ++ ',' :: more))))) := by
  intro fuel rest hfuel
  simp only [List.length_append, List.length_cons] at hfuel
  obtain ⟨f, rfl⟩ : ∃ f, fuel = f + 1 := ⟨fuel - 1, by omega⟩
  have hcomma : isSpace ',' = false := by decide
  simp only [List.append_assoc, List.cons_append]
  rw [readMembers, hname.skipSpace_append hbefore, readName_append hname]
  simp only [readItems_step hgap h ih hafter (show ',' = ',' ∨ ',' = ']' ∨ ',' = '}' by simp)
    (show 2 * t.length ≤ f by omega), skipSpace_blank hafter, skipSpace_cons hcomma,
    hmore f rest (by omega)]

theorem readFrom_array {ns : List Node} {t : List Char} (h : Written (.items ns) t)
    (ih : (Phrase.items ns).ReadFrom t) : (Phrase.node (.array ns)).ReadFrom ('[' :: t) := by
  intro fuel rest hfuel _
  simp only [List.length_cons] at hfuel
  obtain ⟨f, rfl⟩ : ∃ f, fuel = f + 1 := ⟨fuel - 1, by omega⟩
  have hopen : isSpace '[' = false := by decide
  have hread := ih f rest (by omega)
  rw [← readItems_skipSpace] at hread
  have hhead : ∀ after, skipSpace (t ++ rest) ≠ ']' :: after := by
    intro after heq
    obtain ⟨c, cs, hcs, hc⟩ := h.items_head rest
    obtain rfl : c = ']' := (List.cons.inj (hcs.symm.trans heq)).1
    exact absurd hc (by decide)
  rw [List.cons_append, readAt, skipSpace_cons hopen]
  simp only [hread]

theorem readFrom_object {ms : List (Option String × Node)} {t : List Char}
    (h : Written (.members ms) t) (ih : (Phrase.members ms).ReadFrom t) :
    (Phrase.node (.object ms)).ReadFrom ('{' :: t) := by
  intro fuel rest hfuel _
  simp only [List.length_cons] at hfuel
  obtain ⟨f, rfl⟩ : ∃ f, fuel = f + 1 := ⟨fuel - 1, by omega⟩
  have hopen : isSpace '{' = false := by decide
  have hread := ih f rest (by omega)
  rw [← readMembers_skipSpace] at hread
  have hhead : ∀ after, skipSpace (t ++ rest) ≠ '}' :: after := by
    intro after heq
    obtain ⟨cs, hcs⟩ := h.members_head rest
    exact absurd (List.cons.inj (hcs.symm.trans heq)).1 (by decide)
  rw [List.cons_append, readAt, skipSpace_cons hopen]
  simp only [hread]

theorem readFrom_empty {gap : List Char} (hgap : Blank gap) :
    (Phrase.node (.array [])).ReadFrom ('[' :: (gap ++ [']'])) ∧
      (Phrase.node (.object [])).ReadFrom ('{' :: (gap ++ ['}'])) := by
  have hopen : isSpace '[' = false ∧ isSpace ']' = false := by decide
  have hbrace : isSpace '{' = false ∧ isSpace '}' = false := by decide
  constructor
  · intro fuel rest hfuel _
    simp only [List.length_cons] at hfuel
    obtain ⟨f, rfl⟩ : ∃ f, fuel = f + 1 := ⟨fuel - 1, by omega⟩
    simp [readAt, skipSpace_cons hopen.1, skipSpace_blank hgap, skipSpace_cons hopen.2]
  · intro fuel rest hfuel _
    simp only [List.length_cons] at hfuel
    obtain ⟨f, rfl⟩ : ∃ f, fuel = f + 1 := ⟨fuel - 1, by omega⟩
    simp [readAt, skipSpace_cons hbrace.1, skipSpace_blank hgap, skipSpace_cons hbrace.2]

theorem readFrom_scalar {n : Node} {t : List Char} (h : Written (.node n) t)
    (hhead : ∀ c, t.head? = some c → c ≠ '[' ∧ c ≠ '{')
    (hread : ∀ rest, Numeral.Ends rest → readScalar (t ++ rest) = (n, some rest)) :
    (Phrase.node n).ReadFrom t := by
  intro fuel rest hfuel hrest
  obtain ⟨c, cs, rfl, hc⟩ := h.head
  simp only [List.length_cons] at hfuel
  obtain ⟨f, rfl⟩ : ∃ f, fuel = f + 1 := ⟨fuel - 1, by omega⟩
  obtain ⟨harray, hobject⟩ := hhead c rfl
  rw [readAt_scalar (List.cons_append) (isSpace_of_startsNode hc) harray hobject]
  exact hread rest hrest

/-- Reading is complete for the grammar. -/
theorem readFrom_of_written {p : Phrase} {t : List Char} (h : Written p t) : p.ReadFrom t := by
  induction h with
  | null => exact readFrom_scalar .null (by rintro _ ⟨⟩; decide) fun rest _ => rfl
  | bool b =>
    cases b with
    | true => exact readFrom_scalar (.bool true) (by rintro _ ⟨⟩; decide) fun rest _ => rfl
    | false => exact readFrom_scalar (.bool false) (by rintro _ ⟨⟩; decide) fun rest _ => rfl
  | @number n t h =>
    apply readFrom_scalar (.number h)
    · intro c hc
      obtain ⟨d, ds, rfl, hd⟩ := h.head
      obtain rfl : d = c := by simpa using hc
      exact ⟨Numeral.ne_of_sign_or_digit hd (by decide) (by decide),
        Numeral.ne_of_sign_or_digit hd (by decide) (by decide)⟩
    · exact fun rest hrest => readScalar_number h hrest
  | string h =>
    apply readFrom_scalar (.string h)
    · intro c hc
      obtain rfl : '"' = c := by simpa using hc
      decide
    · intro rest _
      simp [readScalar, unquote, h.readPieces_append]
  | emptyArray hgap => exact (readFrom_empty hgap).1
  | array h ih => exact readFrom_array h ih
  | emptyObject hgap => exact (readFrom_empty hgap).2
  | object h ih => exact readFrom_object h ih
  | lastItem hbefore h hafter ih => exact readFrom_items_last hbefore h ih hafter
  | moreItems hbefore h hafter _ ih ihmore =>
    exact readFrom_items_more hbefore h ih hafter ihmore
  | lastMember hbefore hname hgap h hafter ih =>
    exact readFrom_members_last hbefore hname hgap h ih hafter
  | moreMembers hbefore hname hgap h hafter _ ih ihmore =>
    exact readFrom_members_more hbefore hname hgap h ih hafter ihmore

/-! ## What is read was written -/

theorem written_of_readScalar {n : Node} {cs after : List Char}
    (h : readScalar cs = (n, some after)) : ∃ t, cs = t ++ after ∧ Written (.node n) t := by
  unfold readScalar at h
  split at h
  · rename_i rest
    split at h
    · rename_i text tail hread
      obtain ⟨rfl, rfl⟩ : Node.string text = n ∧ tail = after := by simpa using h
      obtain ⟨⟨ps, tail'⟩, hpieces, heq⟩ := Option.map_eq_some_iff.mp hread
      obtain ⟨rfl, rfl⟩ : (joinPieces ps).map String.ofList = text ∧ tail' = tail := by
        simpa using heq
      obtain ⟨body, rfl, hbody⟩ := stringBody_of_readPieces hpieces
      exact ⟨_, by simp, .string hbody⟩
    · cases h
  · obtain ⟨rfl, rfl⟩ : Node.null = n ∧ _ = after := by simpa using h
    exact ⟨_, rfl, .null⟩
  · obtain ⟨rfl, rfl⟩ : Node.bool true = n ∧ _ = after := by simpa using h
    exact ⟨_, rfl, .bool true⟩
  · obtain ⟨rfl, rfl⟩ : Node.bool false = n ∧ _ = after := by simpa using h
    exact ⟨_, rfl, .bool false⟩
  · unfold ofNumeral? at h
    split at h
    · rename_i numeral tail hread
      obtain ⟨rfl, rfl⟩ : Node.number numeral = n ∧ tail = after := by simpa using h
      obtain ⟨t, rfl, ht⟩ := Numeral.numeralText_of_read hread
      exact ⟨t, rfl, .number ht⟩
    · cases h

theorem nameText_of_readName {name : Option String} {cs after : List Char}
    (h : readName cs = some (name, after)) : ∃ t, cs = t ++ after ∧ NameText name t := by
  unfold readName at h
  split at h
  · rename_i rest
    split at h
    · rename_i text tail hread
      split at h
      · rename_i tail' hcolon
        obtain ⟨rfl, rfl⟩ : text = name ∧ tail' = after := by simpa using h
        obtain ⟨⟨ps, tail''⟩, hpieces, heq⟩ := Option.map_eq_some_iff.mp hread
        obtain ⟨rfl, rfl⟩ : (joinPieces ps).map String.ofList = text ∧ tail'' = tail := by
          simpa using heq
        obtain ⟨body, rfl, hbody⟩ := stringBody_of_readPieces hpieces
        obtain ⟨gap, htail, hgap⟩ := exists_blank tail''
        rw [hcolon] at htail
        exact ⟨_, by simp [htail], .intro hbody hgap⟩
      · cases h
    · cases h
  · cases h

mutual

theorem written_of_readAt : ∀ (fuel : Nat) {n : Node} {cs after : List Char},
    readAt fuel cs = (n, some after) →
      ∃ gap t, cs = gap ++ (t ++ after) ∧ Blank gap ∧ Written (.node n) t
  | 0, n, cs, after, h => by cases h
  | fuel + 1, n, cs, after, h => by
    obtain ⟨gap, hcs, hgap⟩ := exists_blank cs
    suffices ∃ t, skipSpace cs = t ++ after ∧ Written (.node n) t by
      obtain ⟨t, ht, hw⟩ := this
      exact ⟨gap, t, by rw [← ht, ← hcs], hgap, hw⟩
    rw [readAt] at h
    split at h
    · rename_i rest hopen
      obtain ⟨inner, hrest, hinner⟩ := exists_blank rest
      rw [hopen]
      split at h
      · rename_i tail hclose
        obtain ⟨rfl, rfl⟩ : Node.array [] = n ∧ tail = after := by simpa using h
        rw [hclose] at hrest
        exact ⟨_, by rw [hrest]; simp, .emptyArray hinner⟩
      · rw [readItems_skipSpace] at h
        obtain ⟨rfl, hafter⟩ := Prod.mk.inj h
        obtain ⟨t, ht, hw⟩ := written_of_readItems fuel (Prod.ext rfl hafter)
        exact ⟨_, by rw [ht]; rfl, .array hw⟩
    · rename_i rest hopen
      obtain ⟨inner, hrest, hinner⟩ := exists_blank rest
      rw [hopen]
      split at h
      · rename_i tail hclose
        obtain ⟨rfl, rfl⟩ : Node.object [] = n ∧ tail = after := by simpa using h
        rw [hclose] at hrest
        exact ⟨_, by rw [hrest]; simp, .emptyObject hinner⟩
      · rw [readMembers_skipSpace] at h
        obtain ⟨rfl, hafter⟩ := Prod.mk.inj h
        obtain ⟨t, ht, hw⟩ := written_of_readMembers fuel (Prod.ext rfl hafter)
        exact ⟨_, by rw [ht]; rfl, .object hw⟩
    · exact written_of_readScalar h

theorem written_of_readItems : ∀ (fuel : Nat) {ns : List Node} {cs after : List Char},
    readItems fuel cs = (ns, some after) → ∃ t, cs = t ++ after ∧ Written (.items ns) t
  | 0, ns, cs, after, h => by cases h
  | fuel + 1, ns, cs, after, h => by
    rw [readItems] at h
    split at h
    · cases h
    · rename_i node rest hnode
      obtain ⟨before, t, rfl, hbefore, ht⟩ := written_of_readAt fuel hnode
      obtain ⟨gap, hrest, hgap⟩ := exists_blank rest
      split at h
      · rename_i tail hclose
        obtain ⟨rfl, rfl⟩ : [node] = ns ∧ tail = after := by simpa using h
        rw [hclose] at hrest
        exact ⟨_, by rw [hrest]; simp, .lastItem hbefore ht hgap⟩
      · rename_i more hcomma
        obtain ⟨rfl, hafter⟩ := Prod.mk.inj h
        obtain ⟨u, hu, hw⟩ := written_of_readItems fuel (Prod.ext rfl hafter)
        rw [hcomma, hu] at hrest
        exact ⟨_, by rw [hrest]; simp, .moreItems hbefore ht hgap hw⟩
      · cases h

theorem written_of_readMembers : ∀ (fuel : Nat) {ms : List (Option String × Node)}
    {cs after : List Char}, readMembers fuel cs = (ms, some after) →
      ∃ t, cs = t ++ after ∧ Written (.members ms) t
  | 0, ms, cs, after, h => by cases h
  | fuel + 1, ms, cs, after, h => by
    obtain ⟨before, hcs, hbefore⟩ := exists_blank cs
    rw [readMembers] at h
    split at h
    · cases h
    · rename_i name rest hname
      obtain ⟨label, hlabel, htext⟩ := nameText_of_readName hname
      rw [hlabel] at hcs
      split at h
      · cases h
      · rename_i node rest' hnode
        obtain ⟨inner, t, rfl, hinner, ht⟩ := written_of_readAt fuel hnode
        obtain ⟨gap, hrest, hgap⟩ := exists_blank rest'
        split at h
        · rename_i tail hclose
          obtain ⟨rfl, rfl⟩ : [(name, node)] = ms ∧ tail = after := by simpa using h
          rw [hclose] at hrest
          exact ⟨_, by rw [hcs, hrest]; simp, .lastMember hbefore htext hinner ht hgap⟩
        · rename_i more hcomma
          obtain ⟨rfl, hafter⟩ := Prod.mk.inj h
          obtain ⟨u, hu, hw⟩ := written_of_readMembers fuel (Prod.ext rfl hafter)
          rw [hcomma, hu] at hrest
          exact ⟨_, by rw [hcs, hrest]; simp, .moreMembers hbefore htext hinner ht hgap hw⟩
        · cases h

end

/-- A document with blanks around it is read whole. -/
theorem read_written {n : Node} {before t after : List Char} (hbefore : Blank before)
    (h : Written (.node n) t) (hafter : Blank after) :
    read (before ++ (t ++ after)) = (n, some after) := by
  have hread := readFrom_of_written h (2 * (before ++ (t ++ after)).length + 2) after
    (by simp only [List.length_append]; omega) (ends_of_blank hafter)
  rw [read, ← readAt_skipSpace, h.skipSpace_append hbefore]
  exact hread

end Node

/-- A text decodes to a value exactly when it is one document with blanks around it and the document
decodes to that value. -/
theorem Decoder.run_eq_ok_iff {α : Type} (decode : Decoder α) (cs : List Char) (a : α) :
    decode.run cs = .ok a ↔
      ∃ n before t after, cs = before ++ (t ++ after) ∧ Blank before ∧ Written (.node n) t ∧
        Blank after ∧ decode depthLimit n = .ok a := by
  constructor
  · intro h
    obtain ⟨n, rest, hread⟩ : ∃ n rest, Node.read cs = (n, rest) := ⟨_, _, rfl⟩
    simp only [run, hread, bind, Except.bind] at h
    split at h
    · cases h
    rename_i b hdecode
    split at h
    · rename_i after
      split at h
      · rename_i hempty
        obtain rfl : b = a := by cases h; rfl
        obtain ⟨before, t, hcs, hbefore, hw⟩ := Node.written_of_readAt _ hread
        obtain ⟨gap, hgap, hblank⟩ := exists_blank after
        rw [List.isEmpty_iff.mp hempty, List.append_nil] at hgap
        exact ⟨n, before, t, after, hcs, hbefore, hw, hgap ▸ hblank, hdecode⟩
      · cases h
    · cases h
  · rintro ⟨n, before, t, after, rfl, hbefore, hw, hafter, hdecode⟩
    have hempty : skipSpace after = [] := by
      have hskip := skipSpace_blank hafter []
      rwa [List.append_nil] at hskip
    simp [run, Node.read_written hbefore hw hafter, hdecode, hempty, bind, Except.bind, pure,
      Except.pure]

theorem Decoder.exists_node_of_run {α : Type} {decode : Decoder α} {cs : List Char} {a : α}
    (h : decode.run cs = .ok a) : ∃ n, decode depthLimit n = .ok a := by
  obtain ⟨n, _, _, _, _, _, _, _, hdecode⟩ := (run_eq_ok_iff decode cs a).mp h
  exact ⟨n, hdecode⟩

theorem decode_written {α : Type} {decode : Decoder α} {n : Node} {t after : List Char} {a : α}
    (ht : Written (.node n) t) (hafter : Blank after) (ha : decode depthLimit n = .ok a) :
    Json.decode decode (String.ofList (t ++ after)) = .ok a := by
  rw [Json.decode, String.toList_ofList, Decoder.run_eq_ok_iff]
  exact ⟨n, [], t, after, rfl, blank_nil, ht, hafter, ha⟩

/-- A text that is a document and nothing else. -/
theorem Decoder.run_written {α : Type} {decode : Decoder α} {n : Node} {t : List Char} {a : α}
    (ht : Written (.node n) t) (ha : decode depthLimit n = .ok a) : decode.run t = .ok a := by
  rw [Decoder.run_eq_ok_iff]
  exact ⟨n, [], t, [], by simp, blank_nil, ht, blank_nil, ha⟩

end Agentry.Json
