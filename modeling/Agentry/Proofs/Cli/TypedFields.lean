import Agentry.Cli.Create
import Agentry.Proofs.Spec.History
import Agentry.Proofs.Text
import Agentry.Proofs.Text.Lowercase
/-!
# Fields as they are typed in

A field can be typed in in many ways: blanks may stand around its parts, its type may be in any
case, and a description that is empty may be left out with its colon. All of them are read as that
field. So fields that are typed in one after the other make their schema, up to the first name that
was there before.
-/
namespace Agentry.Cli

variable {type : FieldType} {required : Bool} {name : String} {field : FieldSpec}
  {cs text word kindText descriptionText : List Char}

/-! ## What is typed in -/

/-- A text with blanks around it. -/
def Padded (cs text : List Char) : Prop :=
  ∃ before after, (∀ c ∈ before, Text.isBlank c = true) ∧ (∀ c ∈ after, Text.isBlank c = true) ∧
    text = before ++ (cs ++ after)

/-- One of the five types, its name in any case. -/
structure Spells (type : FieldType) (word : List Char) : Prop where
  known : ∀ name, type ≠ .other name
  letters : word.map Text.asciiLower = type.name.toList

/-- A type and perhaps the mark of a required field. -/
inductive KindText (type : FieldType) : Bool → List Char → Prop where
  | plain {word text : List Char} : Spells type word → Padded word text → KindText type false text
  | marked {word text after : List Char} : Spells type word → Padded word text →
    (∀ c ∈ after, Text.isBlank c = true) → KindText type true (text ++ '!' :: after)

/-- A field that has a form to be typed in. -/
structure Typeable (name : String) (field : FieldSpec) : Prop where
  ne_empty : name ≠ ""
  name_trimmed : Text.trim name = name
  no_colon : ':' ∉ name.toList
  description_trimmed : Text.trim field.description = field.description

instance (name : String) (field : FieldSpec) : Decidable (Typeable name field) :=
  decidable_of_iff (name ≠ "" ∧ Text.trim name = name ∧ ':' ∉ name.toList ∧
      Text.trim field.description = field.description)
    ⟨fun ⟨hempty, hname, hcolon, hdescription⟩ => ⟨hempty, hname, hcolon, hdescription⟩,
      fun h => ⟨h.ne_empty, h.name_trimmed, h.no_colon, h.description_trimmed⟩⟩

/-- The texts that may be typed in for a field. -/
inductive TypedIn : String × FieldSpec → String → Prop where
  | short {name text : String} {type : FieldType} {required : Bool}
    {nameText kindText : List Char} :
    Padded name.toList nameText → KindText type required kindText →
    text.toList = nameText ++ ':' :: kindText → TypedIn (name, ⟨type, required, ""⟩) text
  | full {name description text : String} {type : FieldType} {required : Bool}
    {nameText kindText descriptionText : List Char} :
    Padded name.toList nameText → KindText type required kindText →
    Padded description.toList descriptionText →
    text.toList = nameText ++ ':' :: (kindText ++ ':' :: descriptionText) →
    TypedIn (name, ⟨type, required, description⟩) text

/-! ## One field -/

theorem trimChars_toList {s : String} (h : Text.trim s = s) :
    Text.trimChars s.toList = s.toList := by
  have hlist := congrArg String.toList h
  rwa [Text.trim, String.toList_ofList] at hlist

theorem padded_of_isAllBlank {before after : String} (hbefore : Text.isAllBlank before = true)
    (hafter : Text.isAllBlank after = true) (cs : List Char) :
    Padded cs (before.toList ++ (cs ++ after.toList)) :=
  ⟨_, _, List.all_eq_true.mp hbefore, List.all_eq_true.mp hafter, rfl⟩

theorem Padded.trimChars_eq (h : Padded cs text) (hcs : Text.trimChars cs = cs) :
    Text.trimChars text = cs := by
  obtain ⟨before, after, hbefore, hafter, rfl⟩ := h
  rw [Text.trimChars_around hbefore hafter, hcs]

theorem Padded.not_mem {mark : Char} (h : Padded cs text) (hcs : mark ∉ cs)
    (hmark : Text.isBlank mark = false) : mark ∉ text := by
  obtain ⟨before, after, hbefore, hafter, rfl⟩ := h
  intro hmem
  rcases List.mem_append.mp hmem with hmem | hmem
  · exact absurd (hbefore mark hmem) (by simp [hmark])
  · rcases List.mem_append.mp hmem with hmem | hmem
    · exact hcs hmem
    · exact absurd (hafter mark hmem) (by simp [hmark])

theorem Spells.letter (h : Spells type word) {c : Char} (hc : c ∈ word) :
    64 < c.toNat ∧ c.toNat < 127 := by
  have hsmall : type.name.toList.all (fun d => 96 < d.toNat && d.toNat < 123) = true := by
    cases type with
    | other name => exact absurd rfl (h.known name)
    | _ => decide
  have hlower := List.all_eq_true.mp hsmall (Text.asciiLower c)
    (h.letters ▸ List.mem_map_of_mem hc)
  rw [Bool.and_eq_true, decide_eq_true_iff, decide_eq_true_iff] at hlower
  rcases Text.asciiLower_cases c with ⟨-, heq⟩ | hcapital
  · rw [heq] at hlower
    omega
  · omega

theorem Spells.not_blank (h : Spells type word) {c : Char} (hc : c ∈ word) :
    Text.isBlank c = false := by
  obtain ⟨hlow, hhigh⟩ := h.letter hc
  exact Text.isBlank_of_visible (by omega) hhigh

theorem Spells.not_mem (h : Spells type word) {mark : Char} (hmark : mark.toNat < 65) :
    mark ∉ word := by
  intro hmem
  have hlow := (h.letter hmem).1
  omega

theorem Spells.trimChars_eq (h : Spells type word) : Text.trimChars word = word :=
  Text.trimChars_of_not_blank fun _ => h.not_blank

theorem Spells.ne_nil (h : Spells type word) : word ≠ [] := by
  rintro rfl
  have hname := h.letters
  cases type with
  | other name => exact h.known name rfl
  | _ => cases hname

theorem Spells.parse_eq (h : Spells type word) {kind : List Char}
    (hkind : Text.trimChars kind = word) : FieldType.parse (String.ofList kind) = .ok type := by
  have hname : Text.asciiLowercase (Text.trim (String.ofList kind)) = type.name := by
    rw [Text.trim, Text.asciiLowercase, String.toList_ofList, String.toList_ofList, hkind,
      h.letters, String.ofList_toList]
  rw [FieldType.parse, hname]
  cases type with
  | other name => exact absurd rfl (h.known name)
  | _ => rfl

/-- The mark is taken off, and what is left is a text for the type. -/
theorem KindText.splitMark_eq (h : KindText type required kindText) :
    ∃ kind, splitMark kindText = (kind, required) ∧
      FieldType.parse (String.ofList kind) = .ok type := by
  cases h with
  | @plain word _ hword hpadded =>
    have htrim := hpadded.trimChars_eq hword.trimChars_eq
    refine ⟨kindText, ?_, hword.parse_eq htrim⟩
    have hlast : word.getLast? ≠ some '!' := by
      intro hlast
      exact hword.not_mem (by decide) (List.mem_of_getLast? hlast)
    rw [splitMark, htrim, if_neg hlast]
  | @marked word text after hword hpadded hafter =>
    obtain ⟨before, gap, hbefore, hgap, rfl⟩ := hpadded
    obtain ⟨c, letters, rfl⟩ := List.exists_cons_of_ne_nil hword.ne_nil
    have hc := hword.not_blank List.mem_cons_self
    -- Seen without the blanks outside, the text starts with a letter and ends with the mark.
    have htrim : Text.trimChars (before ++ (c :: letters ++ gap) ++ '!' :: after) =
        c :: letters ++ gap ++ ['!'] := by
      have hshape : before ++ (c :: letters ++ gap) ++ '!' :: after =
          before ++ (c :: (letters ++ gap ++ ['!']) ++ after) := by simp
      rw [hshape, Text.trimChars_around hbefore hafter, Text.trimChars_of_ends hc (by decide)]
      rfl
    refine ⟨c :: letters ++ gap, ?_, hword.parse_eq ?_⟩
    · rw [splitMark, htrim, if_pos List.getLast?_concat, List.dropLast_concat]
    · have hpadded : Padded (c :: letters) (c :: letters ++ gap) :=
        ⟨[], gap, by simp, hgap, rfl⟩
      exact hpadded.trimChars_eq hword.trimChars_eq

theorem KindText.no_colon (h : KindText type required kindText) : ':' ∉ kindText := by
  cases h with
  | plain hword hpadded => exact hpadded.not_mem (hword.not_mem (by decide)) (by decide)
  | @marked word text after hword hpadded hafter =>
    have hcolon : ':' ∉ word := hword.not_mem (by decide)
    have htext := hpadded.not_mem hcolon (by decide)
    have hafter' : ':' ∉ after := by
      intro hmem
      exact absurd (hafter ':' hmem) (by decide)
    simp [htext, hafter']

theorem fieldOf_short (h : KindText type required kindText) :
    fieldOf kindText = .ok ⟨type, required, ""⟩ := by
  obtain ⟨kind, hmark, hparse⟩ := h.splitMark_eq
  simp only [fieldOf, Text.cut_char_eq_none h.no_colon, Option.getD_none, hmark, hparse]
  rfl

theorem fieldOf_full (h : KindText type required kindText) {description : String}
    (hpadded : Padded description.toList descriptionText)
    (htrimmed : Text.trim description = description) :
    fieldOf (kindText ++ ':' :: descriptionText) = .ok ⟨type, required, description⟩ := by
  obtain ⟨kind, hmark, hparse⟩ := h.splitMark_eq
  have hdescription := hpadded.trimChars_eq (trimChars_toList htrimmed)
  simp only [fieldOf, Text.cut_char h.no_colon, Option.getD_some, hmark, hparse, hdescription,
    String.ofList_toList]
  rfl

theorem parseField_of_fieldOf {text : String} {nameText rest : List Char}
    (htext : text.toList = nameText ++ ':' :: rest) (hfield : Typeable name field)
    (hname : Padded name.toList nameText) (hrest : fieldOf rest = .ok field) :
    parseField text = .ok (name, field) := by
  have hcolon := hname.not_mem hfield.no_colon (by decide)
  have htrim := hname.trimChars_eq (trimChars_toList hfield.name_trimmed)
  have hne : name.toList.isEmpty = false := by simpa using hfield.ne_empty
  rw [parseField, htext, Text.cut_char hcolon]
  simp [htrim, hne, hrest]

theorem parseField_typedIn {entry : String × FieldSpec} {text : String}
    (hentry : Typeable entry.1 entry.2) (h : TypedIn entry text) : parseField text = .ok entry := by
  cases h with
  | short hname hkind htext =>
    exact parseField_of_fieldOf htext hentry hname (fieldOf_short hkind)
  | full hname hkind hdescription htext =>
    exact parseField_of_fieldOf htext hentry hname
      (fieldOf_full hkind hdescription hentry.description_trimmed)

/-! ## One after the other -/

/-- Fields under new names come last, and reading goes on behind them. -/
theorem extendSchema_append (label : String) (schema : Schema) {fields : List (String × FieldSpec)}
    {texts : List String}
    (h : List.Forall₂ (fun entry text => parseField text = .ok entry) fields texts)
    (hnodup : (schema.names ++ fields.map (·.1)).Nodup) (rest : List String) :
    extendSchema label schema (texts ++ rest) =
      extendSchema label ⟨schema.fields ++ fields⟩ rest := by
  induction h generalizing schema with
  | nil => rw [List.nil_append, List.append_nil]
  | @cons entry text fields texts hparse _ ih =>
    obtain ⟨name, field⟩ := entry
    rw [List.map_cons, List.append_cons] at hnodup
    have hnew : name ∉ schema.names := by
      intro hold
      exact absurd hnodup.of_append_left (by simp [List.nodup_append, hold])
    have hcontains : schema.contains name = false :=
      Bool.eq_false_iff.mpr (mt Schema.contains_iff.mp hnew)
    have hpush : (schema.push name field).names = schema.names ++ [name] := by
      simp [Schema.names, Schema.push]
    rw [List.cons_append, extendSchema, hparse]
    simp only [hcontains, Schema.insert_of_new hnew]
    rw [if_neg (by simp), ih (schema.push name field) (by rwa [hpush])]
    simp [Schema.push]

theorem exists_first_repeat {fields : List (String × FieldSpec)} (h : ¬ (fields.map (·.1)).Nodup) :
    ∃ front name field rest, fields = front ++ (name, field) :: rest ∧
      (front.map (·.1)).Nodup ∧ name ∈ front.map (·.1) := by
  induction fields using List.reverseRecOn with
  | nil => exact absurd List.nodup_nil h
  | append_singleton fields entry ih =>
    by_cases hfields : (fields.map (·.1)).Nodup
    · refine ⟨fields, entry.1, entry.2, [], rfl, hfields, ?_⟩
      by_contra hnew
      rw [List.map_append, List.map_singleton, ← List.concat_eq_append] at h
      exact h (hfields.concat hnew)
    · obtain ⟨front, name, field, rest, rfl, hfront, hname⟩ := ih hfields
      exact ⟨front, name, field, rest ++ [entry], by simp, hfront, hname⟩

/-- Fields that are typed in make their schema if their names are distinct, and else the first name
that was there before is refused. -/
theorem parseSchema_typedIn (label : String) {fields : List (String × FieldSpec)}
    {texts : List String} (hfields : ∀ entry ∈ fields, Typeable entry.1 entry.2)
    (htexts : List.Forall₂ TypedIn fields texts) :
    ((fields.map (·.1)).Nodup → parseSchema label texts = .ok ⟨fields⟩) ∧
      (¬ (fields.map (·.1)).Nodup →
        ∃ front name field rest, fields = front ++ (name, field) :: rest ∧
          (front.map (·.1)).Nodup ∧ name ∈ front.map (·.1) ∧
          parseSchema label texts = .error (.invalid (.duplicateField label name))) := by
  have hparse : List.Forall₂ (fun entry text => parseField text = .ok entry) fields texts :=
    ((List.forall₂_and_left fields texts).mpr ⟨hfields, htexts⟩).imp
      fun _ _ h => parseField_typedIn h.1 h.2
  constructor
  · intro hnodup
    have hall := extendSchema_append label .empty hparse hnodup []
    rwa [List.append_nil] at hall
  · intro hrepeated
    obtain ⟨front, name, field, rest, rfl, hfront, hname⟩ := exists_first_repeat hrepeated
    refine ⟨front, name, field, rest, rfl, hfront, hname, ?_⟩
    -- The texts split where the fields do.
    have hbefore := List.forall₂_take front.length hparse
    have hbehind := List.forall₂_drop front.length hparse
    rw [List.take_left] at hbefore
    rw [List.drop_left] at hbehind
    obtain ⟨text, more, htext, -, hmore⟩ := List.forall₂_cons_left_iff.mp hbehind
    have hold : (Schema.mk (Schema.empty.fields ++ front)).contains name = true :=
      Schema.contains_iff.mpr hname
    rw [parseSchema, ← List.take_append_drop front.length texts, hmore,
      extendSchema_append label .empty hbefore hfront, extendSchema, htext]
    simp only [hold, if_true]

/-- A field with marks in its description, and a field that is typed in twice. -/
def noonFields : List (String × FieldSpec) :=
  [("when", ⟨.string, true, "noon: now!"⟩), ("seats", .optional .number),
    ("seats", .optional .array)]

theorem typedIn_noonFields : List.Forall₂ TypedIn noonFields
    [" when :\tSTRing ! : noon: now! ", "seats:Number", "seats: array:"] := by
  have hpadded : ∀ text : String, Padded text.toList (" ".toList ++ (text.toList ++ " ".toList)) :=
    fun text => padded_of_isAllBlank (by decide) (by decide) text.toList
  have hbare : ∀ text : String, Padded text.toList text.toList :=
    fun text => ⟨[], [], nofun, nofun, by simp⟩
  have hstring : Spells .string "STRing".toList := ⟨nofun, by decide⟩
  have hindented : Padded "STRing".toList ("\t".toList ++ ("STRing".toList ++ " ".toList)) :=
    padded_of_isAllBlank (by decide) (by decide) _
  have hmarked : KindText .string true "\tSTRing ! ".toList :=
    .marked hstring hindented (List.all_eq_true.mp (show [' '].all Text.isBlank = true by decide))
  have hnumber : Spells .number "Number".toList := ⟨nofun, by decide⟩
  have harray : Spells .array "array".toList := ⟨nofun, by decide⟩
  have hspaced : Padded "array".toList (" ".toList ++ ("array".toList ++ "".toList)) :=
    padded_of_isAllBlank (by decide) (by decide) _
  exact .cons (.full (hpadded _) hmarked (hpadded _) rfl)
    (.cons (.short (hbare _) (.plain hnumber (hbare _)) rfl)
      (.cons (.full (hbare _) (.plain harray hspaced) (hbare _) rfl) .nil))

theorem parseSchema_typedIn_noonFields :
    parseSchema "input_schema" [" when :\tSTRing ! : noon: now! ", "seats:Number"] =
        .ok ⟨noonFields.take 2⟩ ∧
      parseSchema "input_schema"
          [" when :\tSTRing ! : noon: now! ", "seats:Number", "seats: array:"] =
        .error (.invalid (.duplicateField "input_schema" "seats")) := by
  have htypeable : ∀ entry ∈ noonFields, Typeable entry.1 entry.2 := by decide
  constructor
  · exact (parseSchema_typedIn "input_schema"
      (fun entry hentry => htypeable entry (List.mem_of_mem_take hentry))
      (List.forall₂_take 2 typedIn_noonFields)).1 (by decide)
  · obtain ⟨front, name, field, rest, hsplit, -, hname, herror⟩ :=
      (parseSchema_typedIn "input_schema" htypeable typedIn_noonFields).2 (by decide)
    have hat : noonFields[front.length]? = some (name, field) := by
      rw [hsplit, List.getElem?_append_right (Nat.le_refl _), Nat.sub_self]
      rfl
    have hseats : name = "seats" := by
      rcases front with _ | ⟨first, _ | ⟨second, _ | ⟨third, front⟩⟩⟩
      · cases hname
      · cases hat
        rfl
      · cases hat
        rfl
      · cases hat
    rw [herror, hseats]

end Agentry.Cli
