import Agentry.Proofs.Artifact.Regions
import Agentry.Proofs.Artifact.Rendering
import Agentry.Proofs.Artifact.Scan
/-!
# The prompt stands alone

Nothing that a prompt holds can be taken for another part. Labels are looked for outside its
literal. A balanced scan that starts above the prompt may run into it, but then it has passed the
label of the prompt, and no document has a line that begins like that label.
-/
namespace Agentry

/-! ## Lines of documents -/

namespace Json

open Label (atStart lineHeads lineHeads_false mem_lineHeads_append)

/-- What may come first on a line of a document. -/
def isLeading (c : Char) : Bool :=
  isSpace c || startsNode c || c = ',' || c = ':' || c = ']' || c = '\x7d'

/-- No line of a text begins with a character, wherever the text itself begins. -/
def NoHead (x : Char) (cs : List Char) : Prop := ∀ start, x ∉ lineHeads start cs

variable {x : Char}

theorem NoHead.append {a b : List Char} (ha : NoHead x a) (hb : NoHead x b) :
    NoHead x (a ++ b) := by
  intro start h
  rcases mem_lineHeads_append h with h | ⟨s, h⟩
  · exact ha start h
  · exact hb s h

theorem NoHead.cons {c : Char} {cs : List Char} (hc : c ≠ x) (h : NoHead x cs) :
    NoHead x (c :: cs) := by
  intro start hmem
  rw [lineHeads] at hmem
  split at hmem
  · exact (List.mem_cons.mp hmem).elim (fun heq => hc heq.symm) (h false)
  · exact h _ hmem

theorem NoHead.nil : NoHead x [] := fun _ h => (by cases h)

theorem NoHead.line {c : Char} {cs : List Char} (hc : c ≠ x) (hblank : atStart true c = false)
    (hcs : '\n' ∉ cs) : NoHead x (c :: cs) := by
  have hfalse : atStart false c = false := by
    simp only [atStart, Bool.or_eq_false_iff] at hblank ⊢
    simp [hblank.1]
  intro start hmem
  cases start with
  | true =>
    rw [lineHeads, hblank, lineHeads_false hcs] at hmem
    simp only [Bool.not_false, Bool.and_self, if_true, List.mem_singleton] at hmem
    exact hc hmem.symm
  | false =>
    rw [lineHeads, hfalse, lineHeads_false hcs] at hmem
    cases hmem

theorem ne_of_isLeading (hx : isLeading x = false) {c : Char} (hc : isLeading c = true) :
    c ≠ x := by
  rintro rfl
  rw [hc] at hx
  cases hx

theorem NoHead.blank (hx : isLeading x = false) {gap : List Char} (hgap : Blank gap) :
    NoHead x gap := by
  induction gap with
  | nil => exact .nil
  | cons c gap ih =>
    have hc : isLeading c = true := by simp [isLeading, hgap c List.mem_cons_self]
    exact (ih fun d hd => hgap d (List.mem_cons_of_mem c hd)).cons (ne_of_isLeading hx hc)

theorem NoHead.quoted (hx : isLeading x = false) {body rest : List Char} {ps : List Piece}
    (hbody : StringBody body ps) (hrest : NoHead x rest) :
    NoHead x ('"' :: (body ++ '"' :: rest)) := by
  have hline : '\n' ∉ body ++ ['"'] := by
    simp only [List.mem_append, not_or]
    exact ⟨fun h => absurd (hbody.le_toNat _ h) (by decide), by decide⟩
  have hsplit : '"' :: (body ++ '"' :: rest) = '"' :: (body ++ ['"']) ++ rest := by simp
  rw [hsplit]
  exact (NoHead.line (ne_of_isLeading hx (by decide)) (by decide) hline).append hrest

/-- A line of a document begins with a token or with what separates tokens. -/
theorem noHead_of_written (hx : isLeading x = false) {p : Phrase} {t : List Char}
    (h : Written p t) : NoHead x t := by
  have hlead : ∀ c, isLeading c = true → c ≠ x := fun c => ne_of_isLeading hx
  have hmark : ∀ c {cs : List Char}, isLeading c = true → NoHead x cs → NoHead x (c :: cs) :=
    fun c _ hc hcs => hcs.cons (hlead c hc)
  have hname : ∀ {name : Option String} {label : List Char}, NameText name label →
      NoHead x label := by
    intro name label hlabel
    cases hlabel with
    | intro hbody hgap =>
      exact .quoted hx hbody ((NoHead.blank hx hgap).append (hmark ':' (by decide) .nil))
  induction h with
  | null => exact .line (hlead 'n' (by decide)) (by decide) (by decide)
  | bool b =>
    cases b with
    | true => exact .line (hlead 't' (by decide)) (by decide) (by decide)
    | false => exact .line (hlead 'f' (by decide)) (by decide) (by decide)
  | number hn =>
    obtain ⟨c, cs, rfl, hc⟩ := hn.head
    have hline : '\n' ∉ cs := fun hmem =>
      absurd (hn.all_isNumeralChar _ (List.mem_cons_of_mem c hmem)) (by decide)
    have hstart : startsNode c = true := by
      rcases hc with rfl | hdigit
      · decide
      · simp [startsNode, hdigit]
    have hblank : atStart true c = false := by
      have hspace := isSpace_of_startsNode hstart
      simp only [isSpace, Bool.or_eq_false_iff, decide_eq_false_iff_not] at hspace
      simp [atStart, Label.isInlineBlank, hspace]
    exact .line (hlead c (by simp [isLeading, hstart])) hblank hline
  | string hbody => exact .quoted hx hbody .nil
  | emptyArray hgap =>
    exact hmark '[' (by decide) ((NoHead.blank hx hgap).append (hmark ']' (by decide) .nil))
  | array _ ih => exact hmark '[' (by decide) ih
  | emptyObject hgap =>
    exact hmark '{' (by decide) ((NoHead.blank hx hgap).append (hmark '}' (by decide) .nil))
  | object _ ih => exact hmark '{' (by decide) ih
  | lastItem hbefore _ hafter ih =>
    exact (NoHead.blank hx hbefore).append
      (ih.append ((NoHead.blank hx hafter).append (hmark ']' (by decide) .nil)))
  | moreItems hbefore _ hafter _ ih ihmore =>
    exact (NoHead.blank hx hbefore).append
      (ih.append ((NoHead.blank hx hafter).append (hmark ',' (by decide) ihmore)))
  | lastMember hbefore hlabel hgap _ hafter ih =>
    exact (NoHead.blank hx hbefore).append ((hname hlabel).append ((NoHead.blank hx hgap).append
      (ih.append ((NoHead.blank hx hafter).append (hmark '}' (by decide) .nil)))))
  | moreMembers hbefore hlabel hgap _ hafter _ ih ihmore =>
    exact (NoHead.blank hx hbefore).append ((hname hlabel).append ((NoHead.blank hx hgap).append
      (ih.append ((NoHead.blank hx hafter).append (hmark ',' (by decide) ihmore)))))

theorem Decoder.noHead_of_run {α : Type} {decode : Decoder α} (hx : isLeading x = false)
    {cs : List Char} {a : α} (h : decode.run cs = .ok a) : NoHead x cs := by
  obtain ⟨n, before, t, after, rfl, hbefore, ht, hafter, _⟩ := (Decoder.run_eq_ok_iff _ _ _).mp h
  exact (NoHead.blank hx hbefore).append ((noHead_of_written hx ht).append (NoHead.blank hx hafter))

end Json

namespace Artifact

open Json (Decoder)
open Label (Closed afterAny isInlineBlank lineHeads lineStarts)
open Literal (closing hashes rawWith rawWith_append)

/-- A text that ends in the label of a prompt, at the start of a line and with its colon, and above
which no prompt opens. -/
structure EndsAtPrompt (text : List Char) : Prop where
  labelled : ∃ front before label between after,
    text = front ++ (before ++ (label.toList ++ (between ++ ':' :: after))) ∧ Closed front ∧
      label ∈ SpecPart.prompt.labels ∧ ∀ gap ∈ [before, between, after], ∀ c ∈ gap,
        isInlineBlank c = true
  first : Label.find SpecPart.prompt.labels Label.rawOpening text = none

theorem EndsAtPrompt.exists_last {text : List Char} (h : EndsAtPrompt text) :
    ∃ front last, text = front ++ last ∧ Closed front ∧ '\n' ∉ last ∧ 's' ∈ lineHeads true last ∧
      ∀ rest, Label.skipInline rest = rest →
        afterAny SpecPart.prompt.labels (last ++ rest) = some rest := by
  obtain ⟨front, before, label, between, after, htext, hfront, hlabel, hgaps⟩ := h.labelled
  simp only [List.forall_mem_cons, List.not_mem_nil, false_implies, implies_true, and_true] at hgaps
  obtain ⟨hbefore, hbetween, hafter⟩ := hgaps
  have hlabels : label = "system_prompt" ∨ label = "systemPrompt" := by
    simpa [SpecPart.labels] using hlabel
  obtain ⟨cs, hcs, hline⟩ : ∃ cs, label.toList = 's' :: cs ∧ '\n' ∉ cs := by
    rcases hlabels with rfl | rfl <;> exact ⟨_, rfl, by decide⟩
  have hend : '\n' ∉ cs ++ (between ++ ':' :: after) := by
    simp only [List.mem_append, List.mem_cons, not_or]
    exact ⟨hline, Label.newline_not_mem_inline hbetween, by decide,
      Label.newline_not_mem_inline hafter⟩
  refine ⟨front, _, htext, hfront, ?_, ?_, ?_⟩
  · rw [hcs]
    simp only [List.mem_append, List.mem_cons, not_or] at hend ⊢
    exact ⟨Label.newline_not_mem_inline hbefore, ⟨by decide, hend.1⟩, hend.2⟩
  · have hstart : Label.atStart true 's' = false := by decide
    have hheads := Label.lineHeads_line hbefore hstart hend []
    rw [hcs, List.cons_append]
    rw [List.append_nil] at hheads
    rw [hheads]
    exact List.mem_cons_self
  · intro rest hrest
    have hfound : Label.afterLabel label
        (before ++ (label.toList ++ (between ++ ':' :: after)) ++ rest) = some rest := by
      have hfirst : ∀ c, label.toList.head? = some c → isInlineBlank c = false := by
        intro c hc
        rw [hcs] at hc
        obtain rfl : 's' = c := Option.some.inj hc
        decide
      have happend : Label.afterLabel label
          (before ++ (label.toList ++ (between ++ ':' :: (after ++ rest)))) =
            some (Label.skipInline rest) :=
        Label.afterLabel_append hbefore hfirst (by rw [hcs]; exact List.cons_ne_nil _ _) hbetween
          hafter
      rw [hrest] at happend
      simpa using happend
    rcases hlabels with rfl | rfl
    · simp only [afterAny, SpecPart.labels, List.findSome?_cons, hfound]
    · have hother : Label.afterLabel "system_prompt"
          (before ++ ("systemPrompt".toList ++ (between ++ ':' :: after)) ++ rest) = none := by
        simp only [List.append_assoc]
        rw [Label.afterLabel, Label.skipInline_blanks hbefore]
        rfl
      simp only [afterAny, SpecPart.labels, List.findSome?_cons, hother, hfound]

/-! ## Readings that agree -/

/-- Two readings of a part are the same, or both fail. -/
def Agree {α : Type} (r s : Reading α) : Prop :=
  r = s ∨ (∃ cause, r = .error cause) ∧ ∃ cause, s = .error cause

theorem Agree.refl {α : Type} (r : Reading α) : Agree r r := Or.inl rfl

theorem Agree.valueOr {α : Type} {r s : Reading α} (h : Agree r s) (default : α) :
    valueOr default r = valueOr default s := by
  rcases h with rfl | ⟨⟨c, rfl⟩, ⟨d, rfl⟩⟩
  · rfl
  · rfl

theorem Agree.issues {α : Type} {r s : Reading α} (h : Agree r s) (part : SpecPart) :
    (issueOf part r).map (·.part) = (issueOf part s).map (·.part) := by
  rcases h with rfl | ⟨⟨c, rfl⟩, ⟨d, rfl⟩⟩
  · rfl
  · rfl

theorem decoded_of_head {α : Type} {decoder : Decoder α} {x : Char}
    (hx : Json.isLeading x = false) {literal : List Char} {start : Bool}
    (h : x ∈ lineHeads start literal) : ∃ cause, decoded decoder literal = .error cause := by
  unfold decoded
  cases hrun : decoder.run literal with
  | ok a => exact absurd h (Decoder.noHead_of_run hx hrun start)
  | error cause => exact ⟨_, rfl⟩

/-- Behind a text in which some later line begins like no line of a document, nothing that follows
changes what a scan reads: it ends before or it reads no document. -/
theorem scanned_agree {α : Type} {opening closing : Char} {decoder : Decoder α} {x : Char}
    (hx : Json.isLeading x = false) {cs : List Char} (hcs : x ∈ lineHeads false cs)
    (rest other : List Char) :
    Agree (scanned opening closing decoder (cs ++ rest))
      (scanned opening closing decoder (cs ++ other)) := by
  have hline : '\n' ∈ cs := by
    cases Decidable.em ('\n' ∈ cs) with
    | inl h => exact h
    | inr h =>
      rw [Label.lineHeads_false h] at hcs
      cases hcs
  cases hopen : Balanced.openOnLine opening cs with
  | none =>
    have hnone : ∀ tail, Balanced.openOnLine opening (cs ++ tail) = none := by
      intro tail
      rw [Balanced.openOnLine_append_of_newline hline, hopen]
      rfl
    left
    simp only [scanned, Balanced.span, hnone]
  | some found =>
    obtain ⟨before, after⟩ := found
    have hopens : ∀ tail,
        Balanced.openOnLine opening (cs ++ tail) = some (before, after ++ tail) := by
      intro tail
      rw [Balanced.openOnLine_append_of_newline hline, hopen]
      rfl
    obtain ⟨heq, hbefore⟩ := Balanced.eq_of_openOnLine hopen
    have hafter : x ∈ lineHeads false (opening :: after) := by
      rw [heq, Label.lineHeads_inLine hbefore] at hcs
      exact hcs
    cases hclose : Balanced.close opening closing 1 .outside after with
    | ok ended =>
      obtain ⟨passed, final⟩ := ended
      have hends := fun tail =>
        (Balanced.close_goesOn after tail 1 .outside).1 passed final hclose
      left
      simp only [scanned, Balanced.span, hopens, hends]
    | error e =>
      -- A longer text may close the span, but then the odd line is part of it.
      have hfails : ∀ tail,
          ∃ cause, scanned opening closing decoder (cs ++ tail) = .error cause := by
        intro tail
        cases hlong : Balanced.close opening closing 1 .outside (after ++ tail) with
        | error e =>
          simp only [scanned, Balanced.span, hopens, hlong]
          exact ⟨_, rfl⟩
        | ok ended =>
          obtain ⟨passed, final⟩ := ended
          simp only [scanned, Balanced.span, hopens, hlong]
          obtain ⟨more, rfl⟩ :=
            (Balanced.close_goesOn after tail 1 .outside).2 e hclose passed final hlong
          apply decoded_of_head hx
          rw [← List.cons_append, Label.lineHeads_append]
          exact List.mem_append_left _ hafter
      exact Or.inr ⟨hfails rest, hfails other⟩

theorem newline_not_mem_labels (part : SpecPart) : ∀ label ∈ part.labels, '\n' ∉ label.toList := by
  cases part <;> decide

/-- A part whose label stands above the prompt is scanned from there past the prompt's own label. -/
theorem mem_lineHeads_of_find {text : List Char} (h : EndsAtPrompt text) {part : SpecPart}
    (hpart : part ≠ .prompt) {rest : List Char}
    (hfind : Label.find part.labels some text = some rest) : 's' ∈ lineHeads false rest := by
  obtain ⟨front, last, rfl, hfront, hlast, hhead, -⟩ := h.exists_last
  obtain ⟨line, hline, hbind⟩ := List.exists_of_findSome?_eq_some hfind
  have hafter : afterAny part.labels line = some rest := by simpa using hbind
  obtain ⟨above, rfl, habove⟩ := Label.exists_of_mem_lineStarts_last hfront hlast hline
  have hmem : 's' ∈ lineHeads true (above ++ last) := by
    rw [Label.lineHeads_append, Label.foldl_atStart_closed habove]
    exact List.mem_append_right _ hhead
  rw [Label.lineHeads_of_afterAny part.begin_initial (newline_not_mem_labels part) hafter] at hmem
  rcases List.mem_cons.mp hmem with heq | hmem
  · have hinitial : part.initial = SpecPart.prompt.initial := heq.symm
    exact absurd (SpecPart.initial_injective hinitial) hpart
  · exact hmem

theorem structured_agree {α : Type} {text : List Char} (h : EndsAtPrompt text) {part : SpecPart}
    (hpart : part ≠ .prompt) (opening closing : Char) (decoder : Decoder α)
    (literal other after : List Char) :
    Agree (structured part opening closing decoder ⟨text, literal, after⟩)
      (structured part opening closing decoder ⟨text, other, after⟩) := by
  rw [structured_eq, structured_eq, afterPart, afterPart]
  cases hfind : Label.find part.labels some text with
  | none => exact .refl _
  | some rest =>
    simp only [List.append_assoc]
    exact scanned_agree (by decide) (mem_lineHeads_of_find h hpart hfind) _ _

/-! ## The prompt -/

/-- The lines above the last label open no prompt, whatever follows that label. -/
theorem no_opening_above {front last : List Char} (hfront : Closed front)
    (hnone : Label.find SpecPart.prompt.labels Label.rawOpening (front ++ last) = none)
    {s : List Char} (hs : s ∈ lineStarts front) (hne : s ≠ []) (rest : List Char) :
    (afterAny SpecPart.prompt.labels (s ++ rest)).bind Label.rawOpening = none := by
  obtain ⟨f, hf, _⟩ := Label.exists_of_mem_lineStarts hs
  have hline : '\n' ∈ s := Label.newline_mem_of_closed (hf ▸ hfront) hne
  have hlocal := Label.afterAny_append_of_newline (newline_not_mem_labels .prompt) hline
  have hmiss := List.findSome?_eq_none_iff.mp hnone _ (Label.mem_lineStarts_append hs last)
  rw [(hlocal last).1] at hmiss
  rw [(hlocal rest).1]
  cases hafter : afterAny SpecPart.prompt.labels s with
  | none => rfl
  | some y =>
    have hy := (hlocal last).2 y hafter
    rw [hafter, Option.map_some, Option.bind_some, Label.rawOpening_append_of_newline hy,
      Option.map_eq_none_iff] at hmiss
    rw [Option.map_some, Option.bind_some, Label.rawOpening_append_of_newline hy, hmiss,
      Option.map_none]

theorem findPrompt_raw {text : List Char} (h : EndsAtPrompt text) {n : Nat} {prompt : String}
    (hprompt : Text.contains (closing n) prompt.toList = false) (rest : List Char) :
    findPrompt (text ++ (rawWith n prompt.toList ++ rest)) =
      (.ok prompt, ⟨text, rawWith n prompt.toList, rest⟩) := by
  obtain ⟨front, last, rfl, hfront, -, -, hafter⟩ := h.exists_last
  have hline := hafter _ (skipInline_rawWith n prompt.toList rest)
  have hmiss : ∀ s ∈ lineStarts front, s ≠ [] → (afterAny SpecPart.prompt.labels
      (s ++ (last ++ (rawWith n prompt.toList ++ rest)))).bind promptOpening = none := by
    intro s hs hne
    have hnone := no_opening_above hfront h.first hs hne
      (last ++ (rawWith n prompt.toList ++ rest))
    cases hany : afterAny SpecPart.prompt.labels
        (s ++ (last ++ (rawWith n prompt.toList ++ rest))) with
    | none => rfl
    | some y =>
      rw [hany, Option.bind_some] at hnone
      rw [Option.bind_some, promptOpening, hnone, Option.map_none]
  apply findPrompt_of_find hprompt
  rw [List.append_assoc, Label.find_closed hfront hmiss, promptOpening_rawWith]
  exact Label.find_front hline (promptOpening_rawWith n prompt.toList rest)

/-- A text with a raw prompt in the middle. -/
def promptText (before : String) (n : Nat) (prompt after : String) : String :=
  before ++ String.ofList (rawWith n prompt.toList) ++ after

/-- Two prompts that do not close their literal leave all other parts of an artifact as they are. -/
theorem parse_promptText_isolated {before : String} (hbefore : EndsAtPrompt before.toList) (n : Nat)
    {p q : String} (hp : Text.contains (closing n) p.toList = false)
    (hq : Text.contains (closing n) q.toList = false) (after : String) :
    (parse (promptText before n p after)).spec.prompt = p ∧
      (parse (promptText before n q after)).spec.prompt = q ∧
      (parse (promptText before n p after)).spec =
        { (parse (promptText before n q after)).spec with prompt := p } ∧
      (parse (promptText before n p after)).issues.map (·.part) =
        (parse (promptText before n q after)).issues.map (·.part) := by
  have hchars : ∀ prompt : String, (promptText before n prompt after).toList =
      before.toList ++ (rawWith n prompt.toList ++ after.toList) := by
    intro prompt
    simp [promptText]
  have hfind : ∀ {prompt : String}, Text.contains (closing n) prompt.toList = false →
      findPrompt (promptText before n prompt after).toList =
        (.ok prompt, ⟨before.toList, rawWith n prompt.toList, after.toList⟩) := by
    intro prompt hprompt
    rw [hchars]
    exact findPrompt_raw hbefore hprompt after.toList
  have hscalar : ∀ part : SpecPart, scalar part ⟨before.toList, rawWith n p.toList, after.toList⟩ =
      scalar part ⟨before.toList, rawWith n q.toList, after.toList⟩ := fun _ => rfl
  have htools := structured_agree hbefore (show SpecPart.tools ≠ .prompt by decide) '[' ']'
    (Decoder.list Tool.decoder) (rawWith n p.toList) (rawWith n q.toList) after.toList
  have hinputs := structured_agree hbefore (show SpecPart.inputs ≠ .prompt by decide) '\x7b' '\x7d'
    Schema.decoder (rawWith n p.toList) (rawWith n q.toList) after.toList
  have houtputs := structured_agree hbefore (show SpecPart.outputs ≠ .prompt by decide) '\x7b'
    '\x7d' Schema.decoder (rawWith n p.toList) (rawWith n q.toList) after.toList
  have hvalue : ∀ prompt : String, valueOr "" (.ok prompt : Reading String) = prompt := fun _ => rfl
  simp only [parse, parseChars, hfind hp, hfind hq, hvalue, hscalar, htools.valueOr,
    hinputs.valueOr, houtputs.valueOr, List.map_append, htools.issues, hinputs.issues,
    houtputs.issues, true_and]
  rfl

/-- The tools above the prompt are not closed, and the prompt tries to close them. -/
theorem parse_promptText_isolated_unclosed :
    (parse (promptText "tools: [\n\tsystemPrompt : " 1 "\"]\nname: \"x\"" ",\nname: \"y\"")).spec =
      { (parse (promptText "tools: [\n\tsystemPrompt : " 1 "" ",\nname: \"y\"")).spec with
        prompt := "\"]\nname: \"x\"" } := by
  have hends : EndsAtPrompt "tools: [\n\tsystemPrompt : ".toList :=
    ⟨⟨"tools: [\n".toList, ['\t'], "systemPrompt", [' '], [' '], by decide,
      Or.inr ⟨"tools: [".toList, rfl⟩, by decide, by simp [isInlineBlank]⟩, by decide⟩
  exact (parse_promptText_isolated hends 1 (by decide) (by decide) ",\nname: \"y\"").2.2.1

end Artifact
end Agentry
