import Agentry.Artifact.Parsed
/-!
# Lines and their labels

A label counts only where it comes first on its line. `lineHeads` lists the characters that come
first on the lines of a text, and all labels of a part begin with one character, so a text without
that character among its heads has no such label and a search passes over it.
-/
namespace Agentry.Label

/-- Whether a line has shown nothing but blanks so far, one character later. -/
def atStart (start : Bool) (c : Char) : Bool :=
  c = '\n' || (start && isInlineBlank c)

/-- The characters that come first on their lines, blanks apart. -/
def lineHeads : Bool → List Char → List Char
  | _, [] => []
  | start, c :: cs =>
    if start && !atStart true c then c :: lineHeads false cs else lineHeads (atStart start c) cs

theorem lineHeads_append (start : Bool) (a b : List Char) :
    lineHeads start (a ++ b) = lineHeads start a ++ lineHeads (a.foldl atStart start) b := by
  induction a generalizing start with
  | nil => rfl
  | cons c a ih =>
    simp only [List.cons_append, lineHeads, List.foldl_cons]
    split
    · rename_i h
      obtain ⟨rfl, hc⟩ : start = true ∧ atStart true c = false := by simpa using h
      rw [ih, hc, List.cons_append]
    · exact ih _

theorem atStart_false {c : Char} (h : c ≠ '\n') : atStart false c = false := by
  simp [atStart, h]

theorem foldl_atStart_false {cs : List Char} (h : '\n' ∉ cs) : cs.foldl atStart false = false := by
  induction cs with
  | nil => rfl
  | cons c cs ih =>
    obtain ⟨hc, hcs⟩ : '\n' ≠ c ∧ '\n' ∉ cs := by simpa using h
    rw [List.foldl_cons, atStart_false (Ne.symm hc), ih hcs]

theorem lineHeads_false {cs : List Char} (h : '\n' ∉ cs) : lineHeads false cs = [] := by
  induction cs with
  | nil => rfl
  | cons c cs ih =>
    obtain ⟨hc, hcs⟩ : '\n' ≠ c ∧ '\n' ∉ cs := by simpa using h
    rw [lineHeads, atStart_false (Ne.symm hc), Bool.false_and, if_neg (by simp), ih hcs]

theorem mem_lineHeads_append {x : Char} {start : Bool} {a b : List Char}
    (h : x ∈ lineHeads start (a ++ b)) : x ∈ lineHeads start a ∨ ∃ s, x ∈ lineHeads s b := by
  rw [lineHeads_append, List.mem_append] at h
  exact h.imp_right fun hb => ⟨_, hb⟩

theorem lineHeads_inLine {cs : List Char} (h : '\n' ∉ cs) (rest : List Char) :
    lineHeads false (cs ++ rest) = lineHeads false rest := by
  rw [lineHeads_append, lineHeads_false h, foldl_atStart_false h, List.nil_append]

theorem lineHeads_newline (rest : List Char) :
    lineHeads false ('\n' :: rest) = lineHeads true rest := rfl

/-- The head of a line is its first character that is not a blank. -/
theorem lineHeads_line {blanks cs : List Char} {c : Char}
    (hblanks : ∀ b ∈ blanks, isInlineBlank b = true) (hc : atStart true c = false)
    (hcs : '\n' ∉ cs) (rest : List Char) :
    lineHeads true (blanks ++ c :: (cs ++ rest)) = c :: lineHeads false rest := by
  induction blanks with
  | nil => rw [List.nil_append, lineHeads, hc, lineHeads_inLine hcs, if_pos (by simp)]
  | cons b blanks ih =>
    have hb : atStart true b = true := by simp [atStart, hblanks b List.mem_cons_self]
    rw [List.cons_append, lineHeads, hb, if_neg (by simp)]
    exact ih fun d hd => hblanks d (List.mem_cons_of_mem b hd)

/-! ## Whole lines -/

/-- A text of whole lines. -/
def Closed (cs : List Char) : Prop := cs = [] ∨ ∃ front, cs = front ++ ['\n']

theorem closed_append {a b : List Char} (ha : Closed a) (hb : Closed b) : Closed (a ++ b) := by
  rcases hb with rfl | ⟨front, rfl⟩
  · rwa [List.append_nil]
  · exact Or.inr ⟨a ++ front, by simp⟩

theorem foldl_atStart_closed {cs : List Char} (h : Closed cs) : cs.foldl atStart true = true := by
  rcases h with rfl | ⟨front, rfl⟩
  · rfl
  · simp [atStart]

theorem newline_mem_of_closed {front s : List Char} (h : Closed (front ++ s)) (hs : s ≠ []) :
    '\n' ∈ s := by
  rcases h with h | ⟨f, h⟩
  · exact absurd (List.append_eq_nil_iff.mp h).2 hs
  · have hlast : (front ++ s).getLast? = some '\n' := by simp [h]
    rw [List.getLast?_append, List.getLast?_eq_some_getLast hs, Option.some_or] at hlast
    exact Option.some.inj hlast ▸ List.getLast_mem hs

theorem exists_of_mem_lineStarts {s cs : List Char} (h : s ∈ lineStarts cs) :
    ∃ front, cs = front ++ s ∧ Closed front := by
  have after : ∀ cs : List Char, s ∈ afterLineFeeds cs →
      ∃ front, cs = front ++ s ∧ ∃ f, front = f ++ ['\n'] := by
    intro cs
    induction cs with
    | nil => intro h; cases h
    | cons c cs ih =>
      intro h
      rw [afterLineFeeds] at h
      split at h
      · rename_i hc
        rcases List.mem_cons.mp h with rfl | h
        · exact ⟨['\n'], by rw [hc]; rfl, [], rfl⟩
        · obtain ⟨front, rfl, f, rfl⟩ := ih h
          exact ⟨c :: (f ++ ['\n']), rfl, c :: f, rfl⟩
      · obtain ⟨front, rfl, f, rfl⟩ := ih h
        exact ⟨c :: (f ++ ['\n']), rfl, c :: f, rfl⟩
  rcases List.mem_cons.mp h with rfl | h
  · exact ⟨[], rfl, Or.inl rfl⟩
  · obtain ⟨front, hcs, hf⟩ := after cs h
    exact ⟨front, hcs, Or.inr hf⟩

/-- The pieces between line feeds are the first lines of the suffixes that start at a line. -/
theorem takeWhile_lineStarts (cs : List Char) :
    (lineStarts cs).map (·.takeWhile (· ≠ '\n')) = Text.splitOn '\n' cs := by
  induction cs with
  | nil => rfl
  | cons c cs ih =>
    rw [lineStarts, List.map_cons] at ih
    rw [lineStarts, afterLineFeeds, Text.splitOn, ← ih]
    by_cases hc : c = '\n' <;> simp [hc]

theorem afterLineFeeds_append (a b : List Char) :
    afterLineFeeds (a ++ b) = (afterLineFeeds a).map (· ++ b) ++ afterLineFeeds b := by
  induction a with
  | nil => rfl
  | cons c a ih =>
    rw [List.cons_append, afterLineFeeds, afterLineFeeds, ih]
    split <;> rfl

theorem lineStarts_append (a b : List Char) :
    lineStarts (a ++ b) = (lineStarts a).map (· ++ b) ++ afterLineFeeds b := by
  rw [lineStarts, lineStarts, afterLineFeeds_append, List.map_cons, List.cons_append]

theorem length_lt_of_mem_afterLineFeeds {s cs : List Char} (h : s ∈ afterLineFeeds cs) :
    s.length < cs.length := by
  induction cs with
  | nil => cases h
  | cons c cs ih =>
    rw [afterLineFeeds] at h
    split at h
    · rcases List.mem_cons.mp h with rfl | h
      · simp
      · exact Nat.lt_succ_of_lt (ih h)
    · exact Nat.lt_succ_of_lt (ih h)

/-- Where a line starts at the very end of a text, a line feed comes last. -/
theorem getLast?_of_nil_mem {cs : List Char} (h : [] ∈ afterLineFeeds cs) :
    cs.getLast? = some '\n' := by
  induction cs with
  | nil => cases h
  | cons c cs ih =>
    rw [afterLineFeeds] at h
    split at h
    · rename_i hc
      rcases List.mem_cons.mp h with rfl | h
      · rw [hc]
        rfl
      · rw [List.getLast?_cons, ih h]
        rfl
    · rw [List.getLast?_cons, ih h]
      rfl

/-- A search passes over whole lines on which it finds nothing. -/
theorem find_closed {α : Type} {labels : List String} {tail : List Char → Option α}
    {front rest : List Char} (hfront : Closed front)
    (hmiss : ∀ s ∈ lineStarts front, s ≠ [] → (afterAny labels (s ++ rest)).bind tail = none) :
    find labels tail (front ++ rest) = find labels tail rest := by
  have after : ∀ front : List Char, front ≠ [] → Closed front →
      (∀ s ∈ afterLineFeeds front, s ≠ [] → (afterAny labels (s ++ rest)).bind tail = none) →
      (afterLineFeeds (front ++ rest)).findSome? (fun line => (afterAny labels line).bind tail) =
        find labels tail rest := by
    intro front
    induction front with
    | nil => intro h; exact absurd rfl h
    | cons c front ih =>
      intro _ hclosed hmiss
      by_cases hnil : front = []
      · subst hnil
        have hmem := newline_mem_of_closed (show Closed ([] ++ [c]) from hclosed) (by simp)
        obtain rfl : '\n' = c := by simpa using hmem
        rfl
      · have hclosed' : Closed front := by
          rcases hclosed with h | ⟨f, h⟩
          · cases h
          · cases f with
            | nil => exact absurd (List.cons.inj h).2 hnil
            | cons d f => exact Or.inr ⟨f, (List.cons.inj h).2⟩
        rw [afterLineFeeds] at hmiss
        rw [List.cons_append, afterLineFeeds]
        split
        · rename_i hc
          rw [if_pos hc] at hmiss
          rw [List.findSome?_cons, hmiss front List.mem_cons_self hnil]
          exact ih hnil hclosed' fun s hs => hmiss s (List.mem_cons_of_mem _ hs)
        · rename_i hc
          rw [if_neg hc] at hmiss
          exact ih hnil hclosed' hmiss
  by_cases hnil : front = []
  · subst hnil
    rfl
  · rw [find, lineStarts, List.findSome?_cons, hmiss front List.mem_cons_self hnil]
    exact after front hnil hfront fun s hs => hmiss s (List.mem_cons_of_mem _ hs)

/-! ## Labels at the front of a line -/

theorem skipInline_blanks {blanks : List Char} (h : ∀ c ∈ blanks, isInlineBlank c = true)
    (rest : List Char) : skipInline (blanks ++ rest) = skipInline rest :=
  List.dropWhile_append_of_pos h

theorem skipInline_cons {c : Char} (h : isInlineBlank c = false) (rest : List Char) :
    skipInline (c :: rest) = c :: rest := by
  simp [skipInline, h]

theorem dropText_append (expected rest : List Char) :
    dropText expected (expected ++ rest) = some rest := by
  induction expected with
  | nil => cases rest <;> rfl
  | cons e expected ih => simp [dropText, ih]

theorem eq_of_dropText {expected cs rest : List Char} (h : dropText expected cs = some rest) :
    cs = expected ++ rest := by
  induction expected generalizing cs with
  | nil =>
    cases cs <;> simpa [dropText] using h
  | cons e expected ih =>
    cases cs with
    | nil => cases h
    | cons c cs =>
      rw [dropText] at h
      split at h
      · rename_i hc
        rw [hc, ih h, List.cons_append]
      · cases h

theorem dropText_eq_none_iff {expected cs : List Char} :
    dropText expected cs = none ↔ ¬ expected <+: cs := by
  rw [← Option.not_isSome_iff_eq_none, Option.isSome_iff_exists]
  apply not_congr
  constructor
  · rintro ⟨rest, hrest⟩
    exact ⟨rest, (eq_of_dropText hrest).symm⟩
  · rintro ⟨rest, rfl⟩
    exact ⟨rest, dropText_append expected rest⟩

theorem afterLabel_append {label : String} {before between after rest : List Char}
    (hbefore : ∀ c ∈ before, isInlineBlank c = true)
    (hlabel : ∀ c, label.toList.head? = some c → isInlineBlank c = false) (hne : label.toList ≠ [])
    (hbetween : ∀ c ∈ between, isInlineBlank c = true)
    (hafter : ∀ c ∈ after, isInlineBlank c = true) :
    afterLabel label (before ++ (label.toList ++ (between ++ ':' :: (after ++ rest)))) =
      some (skipInline rest) := by
  obtain ⟨c, cs, hcs⟩ := List.exists_cons_of_ne_nil hne
  have hskip : ∀ more, skipInline (label.toList ++ more) = label.toList ++ more := by
    intro more
    rw [hcs, List.cons_append]
    exact skipInline_cons (hlabel c (by simp [hcs])) _
  have hcolon : skipInline (':' :: (after ++ rest)) = ':' :: (after ++ rest) :=
    skipInline_cons (by decide) _
  simp only [afterLabel, skipInline_blanks hbefore, hskip, dropText_append,
    skipInline_blanks hbetween, hcolon, skipInline_blanks hafter]

/-! ## What follows a label -/

theorem exists_inline (cs : List Char) :
    ∃ blanks, cs = blanks ++ skipInline cs ∧ ∀ b ∈ blanks, isInlineBlank b = true :=
  ⟨cs.takeWhile isInlineBlank, List.takeWhile_append_dropWhile.symm, fun b hb =>
    List.all_eq_true.mp List.all_takeWhile b hb⟩

theorem newline_not_mem_inline {blanks : List Char} (h : ∀ b ∈ blanks, isInlineBlank b = true) :
    '\n' ∉ blanks := by
  intro hmem
  exact absurd (h _ hmem) (by decide)

/-- A line begins with a label and its colon, with blanks around both, and `rest` follows. -/
def Heads (label : String) (line rest : List Char) : Prop :=
  ∃ before gap after, line = before ++ (label.toList ++ (gap ++ ':' :: (after ++ rest))) ∧
    ∀ blanks ∈ [before, gap, after], ∀ b ∈ blanks, isInlineBlank b = true

theorem Heads.append {label : String} {line rest : List Char} (h : Heads label line rest)
    (more : List Char) : Heads label (line ++ more) (rest ++ more) := by
  obtain ⟨before, gap, after, rfl, hblank⟩ := h
  exact ⟨before, gap, after, by simp, hblank⟩

theorem Heads.suffix {label : String} {line rest : List Char} (h : Heads label line rest) :
    ∃ front, line = front ++ rest := by
  obtain ⟨before, gap, after, rfl, -⟩ := h
  exact ⟨before ++ (label.toList ++ (gap ++ ':' :: after)), by simp⟩

/-- No line feed parts a label from what follows it. -/
theorem Heads.inLine {label : String} {line rest : List Char} (h : Heads label line rest)
    (hlabel : '\n' ∉ label.toList) : ∃ front, line = front ++ rest ∧ '\n' ∉ front := by
  obtain ⟨before, gap, after, rfl, hblank⟩ := h
  have hinline : ∀ blanks ∈ [before, gap, after], '\n' ∉ blanks :=
    fun blanks hblanks => newline_not_mem_inline (hblank blanks hblanks)
  simp only [List.forall_mem_cons] at hinline
  obtain ⟨hbefore, hgap, hafter, -⟩ := hinline
  refine ⟨before ++ (label.toList ++ (gap ++ ':' :: after)), by simp, ?_⟩
  simp only [List.mem_append, List.mem_cons, not_or]
  exact ⟨hbefore, hlabel, hgap, by decide, hafter⟩

theorem heads_of_afterLabel {label : String} {line rest : List Char}
    (h : afterLabel label line = some rest) : Heads label line rest := by
  unfold afterLabel at h
  split at h
  · rename_i tail hdrop
    split at h
    · rename_i after hcolon
      obtain ⟨before, hbefore, hbeforeBlank⟩ := exists_inline line
      obtain ⟨gap, hgap, hgapBlank⟩ := exists_inline tail
      obtain ⟨last, hlast, hlastBlank⟩ := exists_inline after
      refine ⟨before, gap, last, ?_, by simpa using ⟨hbeforeBlank, hgapBlank, hlastBlank⟩⟩
      rw [← Option.some.inj h, ← hlast, ← hcolon, ← hgap, ← eq_of_dropText hdrop]
      exact hbefore
    · cases h
  · cases h

/-- A label stands on one line, between what precedes it and what follows its colon. -/
theorem exists_of_afterLabel {label : String} {line rest : List Char}
    (h : afterLabel label line = some rest) :
    ∃ before between, line = before ++ (label.toList ++ (between ++ rest)) ∧
      (∀ b ∈ before, isInlineBlank b = true) ∧ '\n' ∉ between := by
  obtain ⟨before, gap, after, rfl, hblank⟩ := heads_of_afterLabel h
  simp only [List.forall_mem_cons] at hblank
  obtain ⟨hbefore, hgap, hafter, -⟩ := hblank
  refine ⟨before, gap ++ ':' :: after, by simp, hbefore, ?_⟩
  simp only [List.mem_append, List.mem_cons, not_or]
  exact ⟨newline_not_mem_inline hgap, by decide, newline_not_mem_inline hafter⟩

/-- The character with which all of some labels begin. -/
def Begin (labels : List String) (x : Char) : Prop :=
  x ≠ '\n' ∧ isInlineBlank x = false ∧ ∀ label ∈ labels, label.toList.head? = some x

theorem skipInline_of_afterAny {labels : List String} {x : Char} (hx : Begin labels x)
    {line rest : List Char} (h : afterAny labels line = some rest) :
    ∃ more, skipInline line = x :: more := by
  obtain ⟨label, hlabel, hafter⟩ := List.exists_of_findSome?_eq_some h
  unfold afterLabel at hafter
  split at hafter
  · rename_i tail hdrop
    have hline := eq_of_dropText hdrop
    obtain ⟨cs, hcs⟩ : ∃ cs, label.toList = x :: cs :=
      List.head?_eq_some_iff.mp (hx.2.2 label hlabel)
    exact ⟨cs ++ tail, by rw [hline, hcs]; rfl⟩
  · cases hafter

theorem lineHeads_of_afterAny {labels : List String} {x : Char} (hx : Begin labels x)
    (hlabels : ∀ label ∈ labels, '\n' ∉ label.toList) {line rest : List Char}
    (h : afterAny labels line = some rest) : lineHeads true line = x :: lineHeads false rest := by
  obtain ⟨label, hlabel, hafter⟩ := List.exists_of_findSome?_eq_some h
  obtain ⟨before, between, rfl, hbefore, hbetween⟩ := exists_of_afterLabel hafter
  obtain ⟨cs, hcs⟩ : ∃ cs, label.toList = x :: cs :=
    List.head?_eq_some_iff.mp (hx.2.2 label hlabel)
  have hlabelLine := hlabels label hlabel
  have hstart : atStart true x = false := by simp [atStart, hx.1, hx.2.1]
  have hline : '\n' ∉ cs ++ between := by
    rw [hcs] at hlabelLine
    simp only [List.mem_append, not_or]
    exact ⟨fun hmem => hlabelLine (List.mem_cons_of_mem x hmem), hbetween⟩
  have hheads := lineHeads_line hbefore hstart hline rest
  rw [List.append_assoc] at hheads
  rw [hcs, List.cons_append]
  exact hheads

theorem mem_lineHeads_of_skipInline {x : Char} (hline : x ≠ '\n') (hblank : isInlineBlank x = false)
    {cs more : List Char} (h : skipInline cs = x :: more) : x ∈ lineHeads true cs := by
  induction cs with
  | nil => cases h
  | cons c cs ih =>
    by_cases hc : isInlineBlank c = true
    · have hstart : atStart true c = true := by simp [atStart, hc]
      have hskip : skipInline (c :: cs) = skipInline cs := by simp [skipInline, hc]
      rw [lineHeads, hstart, if_neg (by simp)]
      exact ih (hskip ▸ h)
    · rw [skipInline_cons (by simpa using hc)] at h
      obtain rfl : c = x := (List.cons.inj h).1
      have hstart : atStart true c = false := by simp [atStart, hline, hblank]
      rw [lineHeads, hstart, if_pos (by simp)]
      exact List.mem_cons_self

theorem lineHeads_of_mem_lineStarts {x : Char} {s cs : List Char} (hs : s ∈ lineStarts cs)
    (h : x ∈ lineHeads true s) : x ∈ lineHeads true cs := by
  obtain ⟨front, rfl, hfront⟩ := exists_of_mem_lineStarts hs
  rw [lineHeads_append, foldl_atStart_closed hfront]
  exact List.mem_append_right _ h

theorem skipInline_append {s : List Char} (h : '\n' ∈ s) (rest : List Char) :
    skipInline (s ++ rest) = skipInline s ++ rest ∧ skipInline s ≠ [] := by
  induction s with
  | nil => cases h
  | cons c s ih =>
    by_cases hc : isInlineBlank c = true
    · have hmem : '\n' ∈ s := by
        rcases List.mem_cons.mp h with rfl | h
        · exact absurd hc (by decide)
        · exact h
      simpa [skipInline, hc] using ih hmem
    · simp [skipInline, hc]

theorem find_skip {α : Type} {labels : List String} {x : Char} (hx : Begin labels x)
    {tail : List Char → Option α} {front rest : List Char} (hfront : Closed front)
    (h : x ∉ lineHeads true front) : find labels tail (front ++ rest) = find labels tail rest := by
  apply find_closed hfront
  intro s hs hne
  cases hafter : afterAny labels (s ++ rest) with
  | none => rfl
  | some found =>
    obtain ⟨more, hmore⟩ := skipInline_of_afterAny hx hafter
    obtain ⟨f, hf, _⟩ := exists_of_mem_lineStarts hs
    obtain ⟨hskip, hskipne⟩ := skipInline_append (newline_mem_of_closed (hf ▸ hfront) hne) rest
    obtain ⟨c, cs, hcs⟩ := List.exists_cons_of_ne_nil hskipne
    rw [hskip, hcs, List.cons_append] at hmore
    obtain rfl : c = x := (List.cons.inj hmore).1
    exact absurd (lineHeads_of_mem_lineStarts hs (mem_lineHeads_of_skipInline hx.1 hx.2.1 hcs)) h

/-- Whole lines none of which begins with a character. -/
def Free (x : Char) (cs : List Char) : Prop := Closed cs ∧ x ∉ lineHeads true cs

theorem Free.append {x : Char} {a b : List Char} (ha : Free x a) (hb : Free x b) :
    Free x (a ++ b) := by
  refine ⟨closed_append ha.1 hb.1, ?_⟩
  rw [lineHeads_append, foldl_atStart_closed ha.1, List.mem_append]
  exact fun h => h.elim ha.2 hb.2

theorem find_eq_none {α : Type} {labels : List String} {x : Char} (hx : Begin labels x)
    {tail : List Char → Option α} {cs : List Char} (h : x ∉ lineHeads true cs) :
    find labels tail cs = none := by
  rw [find, List.findSome?_eq_none_iff]
  intro s hs
  cases hafter : afterAny labels s with
  | none => rfl
  | some found =>
    obtain ⟨more, hmore⟩ := skipInline_of_afterAny hx hafter
    exact absurd (lineHeads_of_mem_lineStarts hs (mem_lineHeads_of_skipInline hx.1 hx.2.1 hmore)) h

/-- What a search finds follows a label that begins a line. -/
theorem exists_of_find {α : Type} {labels : List String} {tail : List Char → Option α}
    {cs : List Char} {a : α} (h : find labels tail cs = some a) :
    ∃ above line rest, cs = above ++ line ∧ Closed above ∧
      (∃ label ∈ labels, Heads label line rest) ∧ tail rest = some a := by
  obtain ⟨line, hline, hfound⟩ := List.exists_of_findSome?_eq_some h
  obtain ⟨rest, hrest, htail⟩ := Option.bind_eq_some_iff.mp hfound
  obtain ⟨label, hlabel, hafter⟩ := List.exists_of_findSome?_eq_some hrest
  obtain ⟨above, hcs, habove⟩ := exists_of_mem_lineStarts hline
  exact ⟨above, line, rest, hcs, habove, ⟨label, hlabel, heads_of_afterLabel hafter⟩, htail⟩

theorem find_front {α : Type} {labels : List String} {tail : List Char → Option α}
    {line rest : List Char} {a : α} (hline : afterAny labels line = some rest)
    (htail : tail rest = some a) : find labels tail line = some a := by
  rw [find, lineStarts, List.findSome?_cons, hline, Option.bind_some, htail]

/-! ## Searches that stay on one line -/

theorem closed_of_append {a b : List Char} (h : Closed (a ++ b)) (hb : b ≠ []) : Closed b := by
  rcases h with h | ⟨front, h⟩
  · exact Or.inl (List.append_eq_nil_iff.mp h).2
  · have hlast : b.getLast? = some '\n' := by
      have heq : (a ++ b).getLast? = some '\n' := by simp [h]
      rwa [List.getLast?_append, List.getLast?_eq_some_getLast hb, Option.some_or,
        ← List.getLast?_eq_some_getLast hb] at heq
    exact Or.inr (List.getLast?_eq_some_iff.mp hlast)

theorem mem_lineStarts_append {s front : List Char} (hs : s ∈ lineStarts front)
    (rest : List Char) : s ++ rest ∈ lineStarts (front ++ rest) := by
  rw [lineStarts_append]
  exact List.mem_append_left _ (List.mem_map_of_mem hs)

/-- Every line of a text starts at or above its last line. -/
theorem exists_of_mem_lineStarts_last {s front last : List Char} (hfront : Closed front)
    (hlast : '\n' ∉ last) (hs : s ∈ lineStarts (front ++ last)) :
    ∃ above, s = above ++ last ∧ Closed above := by
  obtain ⟨f, hf, hclosed⟩ := exists_of_mem_lineStarts hs
  rcases List.append_eq_append_iff.mp hf with ⟨a, hfa, hla⟩ | ⟨c, hfc, hsc⟩
  · have hnil : a = [] := by
      cases a with
      | nil => rfl
      | cons x a =>
        have hmem := newline_mem_of_closed (hfa ▸ hclosed) (show x :: a ≠ [] by simp)
        exact absurd (hla ▸ List.mem_append_left s hmem) hlast
    rw [hnil, List.nil_append] at hla
    exact ⟨[], hla.symm, Or.inl rfl⟩
  · by_cases hc : c = []
    · exact ⟨c, hsc, Or.inl hc⟩
    · exact ⟨c, hsc, closed_of_append (hfc ▸ hfront) hc⟩

/-- What begins with the lines of a text is looked at up to the end of the first one. -/
theorem dropText_append_of_newline {expected x : List Char} (hexpected : '\n' ∉ expected)
    (hx : '\n' ∈ x) (rest : List Char) :
    dropText expected (x ++ rest) = (dropText expected x).map (· ++ rest) ∧
      ∀ y, dropText expected x = some y → '\n' ∈ y := by
  induction expected generalizing x with
  | nil =>
    refine ⟨by cases x <;> cases rest <;> simp [dropText], fun y hy => ?_⟩
    have heq : x = y := by cases x <;> simpa [dropText] using hy
    exact heq ▸ hx
  | cons e expected ih =>
    obtain ⟨he, hexpected⟩ : '\n' ≠ e ∧ '\n' ∉ expected := by simpa using hexpected
    cases x with
    | nil => cases hx
    | cons c x =>
      rw [List.cons_append, dropText, dropText]
      split
      · rename_i hec
        have hmem : '\n' ∈ x := (List.mem_cons.mp hx).resolve_left fun h => he (h.trans hec.symm)
        exact ih hexpected hmem
      · exact ⟨rfl, fun y hy => (by cases hy)⟩

theorem newline_mem_skipInline {cs : List Char} (h : '\n' ∈ cs) : '\n' ∈ skipInline cs := by
  obtain ⟨blanks, hcs, hblanks⟩ := exists_inline cs
  rw [hcs] at h
  exact (List.mem_append.mp h).resolve_left (newline_not_mem_inline hblanks)

theorem afterLabel_append_of_newline {label : String} (hlabel : '\n' ∉ label.toList)
    {line : List Char} (hline : '\n' ∈ line) (rest : List Char) :
    afterLabel label (line ++ rest) = (afterLabel label line).map (· ++ rest) ∧
      ∀ y, afterLabel label line = some y → '\n' ∈ y := by
  obtain ⟨hdrop, hmem⟩ := dropText_append_of_newline hlabel (newline_mem_skipInline hline) rest
  unfold afterLabel
  rw [(skipInline_append hline rest).1, hdrop]
  cases htail : dropText label.toList (skipInline line) with
  | none => exact ⟨rfl, fun y hy => (by cases hy)⟩
  | some tail =>
    have htailLine := hmem tail htail
    obtain ⟨hskip, hne⟩ := skipInline_append htailLine rest
    have hskipLine := newline_mem_skipInline htailLine
    simp only [Option.map_some, hskip]
    cases hcs : skipInline tail with
    | nil => exact absurd hcs hne
    | cons c cs =>
      rw [hcs] at hskipLine
      by_cases hc : c = ':'
      · subst hc
        have hcsLine : '\n' ∈ cs := (List.mem_cons.mp hskipLine).resolve_left (by decide)
        simp only [List.cons_append, (skipInline_append hcsLine rest).1, Option.map_some,
          Option.some.injEq, true_and]
        intro y hy
        exact hy ▸ newline_mem_skipInline hcsLine
      · simp [hc]

/-- Whether a line has one of some labels is settled on that line. -/
theorem afterAny_append_of_newline {labels : List String}
    (hlabels : ∀ label ∈ labels, '\n' ∉ label.toList) {line : List Char} (hline : '\n' ∈ line)
    (rest : List Char) :
    afterAny labels (line ++ rest) = (afterAny labels line).map (· ++ rest) ∧
      ∀ y, afterAny labels line = some y → '\n' ∈ y := by
  induction labels with
  | nil => exact ⟨rfl, fun y hy => (by cases hy)⟩
  | cons label labels ih =>
    obtain ⟨happend, hmem⟩ :=
      afterLabel_append_of_newline (hlabels label List.mem_cons_self) hline rest
    rw [afterAny, afterAny, List.findSome?_cons, List.findSome?_cons, happend]
    cases h : afterLabel label line with
    | some tail =>
      refine ⟨rfl, fun y hy => ?_⟩
      rw [← Option.some.inj hy]
      exact hmem tail h
    | none => exact ih fun other hother => hlabels other (List.mem_cons_of_mem _ hother)

theorem rawOpening_append_of_newline {x : List Char} (hx : '\n' ∈ x) (rest : List Char) :
    rawOpening (x ++ rest) =
      (rawOpening x).map fun (hashes, body) => (hashes, body ++ rest) := by
  have hdrop : ∀ cs : List Char, '\n' ∈ cs →
      (cs ++ rest).dropWhile (· = '#') = cs.dropWhile (· = '#') ++ rest ∧
      (cs ++ rest).takeWhile (· = '#') = cs.takeWhile (· = '#') ∧
      cs.dropWhile (· = '#') ≠ [] := by
    intro cs hcs
    induction cs with
    | nil => cases hcs
    | cons c cs ih =>
      by_cases hc : c = '#'
      · subst hc
        have hmem : '\n' ∈ cs := (List.mem_cons.mp hcs).resolve_left (by decide)
        simpa using ih hmem
      · simp [hc]
  cases x with
  | nil => cases hx
  | cons c x =>
    by_cases hc : c = 'r'
    · subst hc
      have hmem : '\n' ∈ x := (List.mem_cons.mp hx).resolve_left (by decide)
      obtain ⟨happend, htake, hne⟩ := hdrop x hmem
      rw [List.cons_append, rawOpening, rawOpening, happend, htake]
      obtain ⟨d, ds, hds⟩ := List.exists_cons_of_ne_nil hne
      rw [hds]
      by_cases hd : d = '"'
      · subst hd
        rfl
      · simp [hd]
    · simp [rawOpening, hc]

/-! ## Places of what is found -/

/-- A search that also keeps the place where it found something. -/
theorem find_placed {α : Type} (labels : List String) (tail : List Char → Option α)
    (cs : List Char) : find labels tail cs =
      (find labels (fun rest => (tail rest).map (rest, ·)) cs).map (·.2) := by
  simp only [find, List.map_findSome?, Function.comp_def, Option.map_bind, Option.map_map,
    Option.map_id_fun', id_eq]

end Agentry.Label
