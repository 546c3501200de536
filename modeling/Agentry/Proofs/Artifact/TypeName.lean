import Agentry.Artifact.Template
import Agentry.Proofs.Slug
import Agentry.Proofs.Text
import Mathlib.Data.Bool.AllAny
/-!
# The name of the behavior type

The slug in capitalised words is made of letters and digits, and it begins with a letter, since a
name that would begin with a digit gets a prefix. A type name without digits can be taken apart
again at its capitals. So each name that the template itself uses is the type name of one slug, and
a slug with a number never has such a name.
-/
namespace Agentry.Artifact

variable {slug : List Char}

/-- What a letter of a slug is in a type name. -/
theorem alphanum_of_slugLetter {c : Char} (h : isSlugLetter c = true) :
    c.isAlphanum = true ∧ (Text.asciiUpper c).isAlphanum = true := by
  have hlt : c.toNat < 123 := by
    simp only [isSlugLetter, Bool.or_eq_true, Bool.and_eq_true, decide_eq_true_eq] at h
    omega
  have hall : ∀ n < 123, isSlugLetter (Char.ofNat n) = true →
      (Char.ofNat n).isAlphanum = true ∧ (Text.asciiUpper (Char.ofNat n)).isAlphanum = true := by
    decide +kernel
  have hc := hall c.toNat hlt
  rw [Char.ofNat_toNat] at hc
  exact hc h

theorem alphanum_capitalised {cs : List Char} (h : ∀ c ∈ cs, isSlugLetter c = true) :
    ∀ c ∈ capitalised cs, c.isAlphanum = true := by
  cases cs with
  | nil => exact fun c hc => (by cases hc)
  | cons d cs =>
    intro c hc
    rcases List.mem_cons.mp hc with rfl | hc
    · exact (alphanum_of_slugLetter (h d List.mem_cons_self)).2
    · exact (alphanum_of_slugLetter (h c (List.mem_cons_of_mem d hc))).1

theorem capitalised_eq_nil {cs : List Char} : capitalised cs = [] ↔ cs = [] := by
  cases cs <;> simp [capitalised]

/-- The words of a slug, capitalised and joined. -/
def joined (slug : List Char) : List Char :=
  (Text.splitOn '-' slug).flatMap capitalised

theorem alphanum_joined (h : ∀ c ∈ slug, isSlugLetter c = true ∨ c = '-') :
    ∀ c ∈ joined slug, c.isAlphanum = true := by
  intro c hc
  obtain ⟨piece, hpiece, hmem⟩ := List.mem_flatMap.mp hc
  refine alphanum_capitalised (fun d hd => ?_) c hmem
  have hflat : d ∈ (Text.splitOn '-' slug).flatten := List.mem_flatten.mpr ⟨piece, hpiece, hd⟩
  rw [Text.flatten_splitOn] at hflat
  obtain ⟨hslug, hne⟩ := List.mem_filter.mp hflat
  exact (h d hslug).resolve_right (by simpa using hne)

theorem joined_ne_nil (h : ∃ c ∈ slug, isSlugLetter c = true) : joined slug ≠ [] := by
  obtain ⟨c, hc, hletter⟩ := h
  have hne : c ≠ '-' := by
    rintro rfl
    exact absurd hletter (by decide)
  have hflat : c ∈ (Text.splitOn '-' slug).flatten := by
    rw [Text.flatten_splitOn]
    exact List.mem_filter.mpr ⟨hc, by simpa using hne⟩
  obtain ⟨piece, hpiece, hmem⟩ := List.mem_flatten.mp hflat
  intro hnil
  have hempty := List.flatMap_eq_nil_iff.mp hnil piece hpiece
  rw [capitalised_eq_nil] at hempty
  rw [hempty] at hmem
  cases hmem

theorem isAlpha_of_not_digit {c : Char} (h : c.isAlphanum = true)
    (hdigit : Json.isDigit c = false) : c.isAlpha = true := by
  have hdigit' : c.isDigit = false := by
    have heq : c.isDigit = Json.isDigit c := rfl
    rw [heq, hdigit]
  simpa [Char.isAlphanum, hdigit'] using h

/-- A type name is a letter followed by letters and digits. -/
theorem typeNameChars_shape (h : ∀ c ∈ slug, isSlugLetter c = true ∨ c = '-')
    (hletter : ∃ c ∈ slug, isSlugLetter c = true) :
    ∃ c rest, typeNameChars slug = c :: rest ∧ c.isAlpha = true ∧
      ∀ d ∈ c :: rest, d.isAlphanum = true := by
  obtain ⟨c, rest, hjoined⟩ := List.exists_cons_of_ne_nil (joined_ne_nil hletter)
  have hall : ∀ d ∈ c :: rest, d.isAlphanum = true := hjoined ▸ alphanum_joined h
  unfold typeNameChars
  rw [← joined, hjoined]
  simp only
  by_cases hdigit : ((c :: rest).head?.map Json.isDigit).getD false = true
  · have hagent : ∀ d ∈ "Agent".toList, d.isAlphanum = true :=
      List.all_iff_forall_prop.mp (by decide)
    have hother : "Agent".toList ++ c :: rest ≠ "Self".toList := by simp
    rw [if_pos hdigit, if_neg hother]
    refine ⟨'A', "gent".toList ++ c :: rest, rfl, by decide, fun d hd => ?_⟩
    rcases List.mem_append.mp (show d ∈ "Agent".toList ++ c :: rest from hd) with hd | hd
    · exact hagent d hd
    · exact hall d hd
  rw [if_neg hdigit]
  by_cases hself : c :: rest = "Self".toList
  · rw [if_pos hself, hself]
    exact ⟨'S', "elfAgent".toList, rfl, by decide, List.all_iff_forall_prop.mp (by decide)⟩
  · rw [if_neg hself]
    have hc := isAlpha_of_not_digit (hall c List.mem_cons_self) (by simpa using hdigit)
    exact ⟨c, rest, rfl, hc, hall⟩

theorem lengthened_ne_self (cs : List Char) :
    (if cs = "Self".toList then cs ++ "Agent".toList else cs) ≠ "Self".toList := by
  split
  · rename_i h
    rw [h]
    decide
  · rename_i h
    exact h

theorem typeNameChars_ne_self (slug : List Char) : typeNameChars slug ≠ "Self".toList :=
  lengthened_ne_self _

/-! ## Type names taken apart -/

/-- The words of a type name in small letters, each with a hyphen before it. -/
def hyphenated (cs : List Char) : List Char :=
  cs.flatMap fun c => if c.isUpper then ['-', Text.asciiLower c] else [c]

theorem letter_cases {c : Char} (h : isSlugLetter c = true) :
    c.isUpper = false ∧ (c.isDigit = true ∧ Text.asciiUpper c = c ∨
      (Text.asciiUpper c).isUpper = true ∧ Text.asciiLower (Text.asciiUpper c) = c) := by
  have hlt : c.toNat < 123 := by
    simp only [isSlugLetter, Bool.or_eq_true, Bool.and_eq_true, decide_eq_true_eq] at h
    omega
  have hall : ∀ n < 123, isSlugLetter (Char.ofNat n) = true →
      (Char.ofNat n).isUpper = false ∧
        ((Char.ofNat n).isDigit = true ∧ Text.asciiUpper (Char.ofNat n) = Char.ofNat n ∨
          (Text.asciiUpper (Char.ofNat n)).isUpper = true ∧
            Text.asciiLower (Text.asciiUpper (Char.ofNat n)) = Char.ofNat n) := by
    decide +kernel
  have hc := hall c.toNat hlt
  rw [Char.ofNat_toNat] at hc
  exact hc h

theorem hyphenated_letters {cs : List Char} (h : ∀ c ∈ cs, isSlugLetter c = true) :
    hyphenated cs = cs := by
  induction cs with
  | nil => rfl
  | cons c cs ih =>
    obtain ⟨hc, hcs⟩ := List.forall_mem_cons.mp h
    have hrest := ih hcs
    simp only [hyphenated, List.flatMap_cons, (letter_cases hc).1] at hrest ⊢
    simp [hrest]

theorem hyphenated_capitalised {word : List Char} (hne : word ≠ [])
    (h : ∀ c ∈ word, isSlugLetter c = true) (hdigits : ∀ c ∈ capitalised word, c.isDigit = false) :
    hyphenated (capitalised word) = '-' :: word := by
  cases word with
  | nil => exact absurd rfl hne
  | cons c cs =>
    obtain ⟨hc, hcs⟩ := List.forall_mem_cons.mp h
    have hfirst := hdigits (Text.asciiUpper c) List.mem_cons_self
    have hrest := hyphenated_letters hcs
    rcases (letter_cases hc).2 with ⟨hdigit, hsame⟩ | ⟨hupper, hlower⟩
    · rw [hsame, hdigit] at hfirst
      cases hfirst
    · simp only [hyphenated] at hrest
      simp [hyphenated, capitalised, hupper, hlower, hrest]

theorem words_of_valid (h : Slug.Valid slug) :
    ∀ word ∈ Text.splitOn '-' slug, word ≠ [] ∧ ∀ c ∈ word, isSlugLetter c = true := by
  induction h with
  | single hc => simp [Text.splitOn, Slug.ne_hyphen_of_letter hc, hc]
  | @letter c cs hc _ ih =>
    obtain ⟨word, words, heq⟩ := List.exists_cons_of_ne_nil (Text.splitOn_ne_nil '-' cs)
    rw [heq, List.forall_mem_cons] at ih
    simp only [Text.splitOn, heq, Slug.ne_hyphen_of_letter hc, if_false, List.forall_mem_cons]
    exact ⟨⟨by simp, hc, ih.1.2⟩, ih.2⟩
  | @hyphen c cs hc _ ih =>
    obtain ⟨word, words, heq⟩ := List.exists_cons_of_ne_nil (Text.splitOn_ne_nil '-' cs)
    rw [heq] at ih
    simp only [Text.splitOn, heq, Slug.ne_hyphen_of_letter hc, if_false, if_true,
      List.forall_mem_cons]
    exact ⟨⟨by simp, by simpa using hc⟩, List.forall_mem_cons.mp ih⟩

theorem flatMap_hyphen_splitOn (cs : List Char) :
    (Text.splitOn '-' cs).flatMap ('-' :: ·) = '-' :: cs := by
  induction cs with
  | nil => rfl
  | cons c cs ih =>
    obtain ⟨word, words, heq⟩ := List.exists_cons_of_ne_nil (Text.splitOn_ne_nil '-' cs)
    rw [heq] at ih
    by_cases hc : c = '-'
    · simp only [Text.splitOn, heq, hc, if_true, List.flatMap_cons] at ih ⊢
      rw [ih]
      rfl
    · simp only [Text.splitOn, heq, hc, if_false, List.flatMap_cons, List.cons_append,
        List.cons.injEq, true_and] at ih ⊢
      exact ih

theorem hyphenated_joined (h : Slug.Valid slug) (hdigits : ∀ c ∈ joined slug, c.isDigit = false) :
    hyphenated (joined slug) = '-' :: slug := by
  have hwords := words_of_valid h
  rw [← flatMap_hyphen_splitOn slug, joined, hyphenated, List.flatMap_assoc]
  refine List.flatMap_congr fun word hword => ?_
  refine hyphenated_capitalised (hwords word hword).1 (hwords word hword).2 fun c hc => ?_
  exact hdigits c (List.mem_flatMap.mpr ⟨word, hword, hc⟩)

theorem joined_of_typeNameChars (hdigits : ∀ c ∈ typeNameChars slug, c.isDigit = false)
    (hself : typeNameChars slug ≠ "SelfAgent".toList) : typeNameChars slug = joined slug := by
  have hhead : ((joined slug).head?.map Json.isDigit).getD false = false := by
    refine Bool.eq_false_iff.mpr fun hdigit => ?_
    cases hjoined : joined slug with
    | nil => simp [hjoined] at hdigit
    | cons c cs =>
      have hc : c.isDigit = true := by
        simp only [hjoined, List.head?_cons, Option.map_some, Option.getD_some] at hdigit
        exact hdigit
      have hmem : c ∈ typeNameChars slug := by
        unfold typeNameChars
        rw [← joined, hjoined]
        rw [hjoined] at hdigit
        simp only [hdigit, if_true]
        split <;> simp
      rw [hdigits c hmem] at hc
      cases hc
  unfold typeNameChars at hself ⊢
  rw [← joined] at hself ⊢
  simp only [hhead, Bool.false_eq_true, if_false] at hself ⊢
  split
  · rename_i heq
    rw [if_pos heq, heq] at hself
    exact absurd rfl hself
  · rfl

/-- A type name without digits belongs to one slug. -/
theorem hyphenated_typeNameChars (h : Slug.Valid slug)
    (hdigits : ∀ c ∈ typeNameChars slug, c.isDigit = false)
    (hself : typeNameChars slug ≠ "SelfAgent".toList) :
    hyphenated (typeNameChars slug) = '-' :: slug := by
  have hjoined := joined_of_typeNameChars hdigits hself
  rw [hjoined] at hdigits ⊢
  exact hyphenated_joined h hdigits

/-! ## Names of the template -/

/-- What an artifact names beside its behavior type. -/
def templateNames : List String :=
  ["SLUG", "AgentSpec", "ArtifactLiterals", "AgentBehavior", "AgentContext", "AgentInput",
    "AgentOutcome", "AgentRegistry", "Ok"]

/-- The slugs whose type name the template has already. -/
def clashingSlugs : List String :=
  ["s-l-u-g", "agent-spec", "artifact-literals", "agent-behavior", "agent-context", "agent-input",
    "agent-outcome", "agent-registry", "ok"]

/-- A letter followed by letters and digits, and no keyword. -/
def IsTypeName (name : String) : Prop :=
  name ≠ "Self" ∧ ∃ c rest, name.toList = c :: rest ∧ c.isAlpha = true ∧
    ∀ d ∈ rest, d.isAlphanum = true

theorem isTypeName_typeName {slug : String} (h : Slug.Valid slug.toList) :
    IsTypeName (typeName slug) := by
  have hletter : ∃ c ∈ slug.toList, isSlugLetter c = true := by
    generalize slug.toList = cs at h
    cases h with
    | single hc => exact ⟨_, List.mem_cons_self, hc⟩
    | letter hc _ => exact ⟨_, List.mem_cons_self, hc⟩
    | hyphen hc _ => exact ⟨_, List.mem_cons_self, hc⟩
  obtain ⟨c, rest, heq, hc, hall⟩ := typeNameChars_shape h.mem hletter
  refine ⟨fun hself => typeNameChars_ne_self slug.toList ?_, c, rest, ?_, hc,
    (List.forall_mem_cons.mp hall).2⟩
  · rw [← hself, typeName, String.toList_ofList]
  · rw [typeName, String.toList_ofList, heq]

/-- A name of the template that is the type name of a slug is that of a clashing one. -/
def clashes (name : String) : Bool :=
  name.toList.all (fun c => !c.isDigit) && name.toList != "SelfAgent".toList &&
    clashingSlugs.contains (String.ofList (hyphenated name.toList).tail)

theorem clashes_templateNames : ∀ name ∈ templateNames, clashes name = true :=
  List.all_eq_true.mp (by decide +kernel)

theorem typeName_clashingSlugs :
    ∀ slug ∈ clashingSlugs, templateNames.contains (typeName slug) = true :=
  List.all_eq_true.mp (by decide +kernel)

theorem typeName_mem_templateNames {slug : String} (h : Slug.Valid slug.toList) :
    typeName slug ∈ templateNames ↔ slug ∈ clashingSlugs := by
  constructor
  · intro hmem
    have hname := clashes_templateNames _ hmem
    simp only [clashes, typeName, String.toList_ofList, Bool.and_eq_true, List.all_eq_true,
      Bool.not_eq_true', bne_iff_ne, List.contains_iff_mem] at hname
    obtain ⟨⟨hdigits, hself⟩, hclash⟩ := hname
    rwa [hyphenated_typeNameChars h hdigits hself, List.tail_cons, String.ofList_toList] at hclash
  · intro hmem
    exact List.contains_iff_mem.mp (typeName_clashingSlugs slug hmem)

theorem numberedSlug_not_mem_clashingSlugs (base : String) (n : Nat) :
    numberedSlug base n ∉ clashingSlugs := by
  intro hmem
  have hcheck : ∀ slug ∈ clashingSlugs, slug.toList.any Char.isDigit = false := by decide +kernel
  obtain ⟨c, hc⟩ : ∃ c, c ∈ (toString n).toList := by
    rw [Nat.toString_eq_repr, Nat.toList_repr]
    exact List.exists_mem_of_ne_nil _ Nat.toDigits_ne_nil
  have hmemNumber : c ∈ (numberedSlug base n).toList := by
    rw [toList_numberedSlug]
    exact List.mem_append_right _ (List.mem_cons_of_mem _ hc)
  exact absurd (digit_of_mem_number hc) (List.any_eq_false.mp (hcheck _ hmem) c hmemNumber)

/-- A behavior type has a legal name. It is a name of the template exactly when the slug is one of
nine, none of which has a number. -/
theorem isTypeName_and_mem_templateNames_iff {name : String} (h : slugify name ≠ "") :
    IsTypeName (typeName (slugify name)) ∧
      (typeName (slugify name) ∈ templateNames ↔ slugify name ∈ clashingSlugs) ∧
      ∀ n : Nat, IsTypeName (typeName (numberedSlug (slugify name) n)) ∧
        typeName (numberedSlug (slugify name) n) ∉ templateNames := by
  have hvalid := valid_slugify h
  refine ⟨isTypeName_typeName hvalid, typeName_mem_templateNames hvalid, fun n => ?_⟩
  have hnumbered := valid_numberedSlug hvalid n
  refine ⟨isTypeName_typeName hnumbered, fun hmem => ?_⟩
  exact numberedSlug_not_mem_clashingSlugs _ n ((typeName_mem_templateNames hnumbered).mp hmem)

theorem isTypeName_and_mem_templateNames_iff_agentSpec :
    slugify "Agent Spec" ≠ "" ∧ typeName (slugify "Agent Spec") ∈ templateNames ∧
      typeName (numberedSlug (slugify "Agent Spec") 2) ∉ templateNames := by
  have hslug : slugify "Agent Spec" = "agent-spec" := by decide +kernel
  have hne : slugify "Agent Spec" ≠ "" := by
    rw [hslug]
    decide
  obtain ⟨-, hiff, hnumbered⟩ := isTypeName_and_mem_templateNames_iff hne
  exact ⟨hne, hiff.mpr (by rw [hslug]; decide), (hnumbered 2).2⟩

/-- An agent called `Ok` has a type that hides the constructor its own source uses. -/
theorem typeName_ok_mem_templateNames :
    slugify "Ok" ≠ "" ∧ typeName (slugify "Ok") ∈ templateNames := by
  decide +kernel

end Agentry.Artifact
