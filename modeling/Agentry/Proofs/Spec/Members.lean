import Agentry.Proofs.Spec.Codec
/-!
# Schemas and the objects they are decoded from

A schema is decoded from an object member by member. A member passes when its value decodes as a
field and its name is new, names being compared as the texts that they stand for. The first member
that does not pass decides on the error.
-/
namespace Agentry

open Json (Blank Decoder DecodeError NameText)

/-! ## Objects as they stand in a text -/

namespace Json

/-- Members up to the closing brace, each with the text that its name stands for and the text of its
value. -/
inductive MemberTexts : List (String × List Char) → List Char → Prop where
  | last {name : String} {n : Node} {before label gap value after : List Char} :
    Blank before → NameText (some name) label → Blank gap → Written (.node n) value →
      Blank after →
      MemberTexts [(name, value)] (before ++ (label ++ (gap ++ (value ++ (after ++ ['}'])))))
  | more {name : String} {n : Node} {members : List (String × List Char)}
    {before label gap value after rest : List Char} :
    Blank before → NameText (some name) label → Blank gap → Written (.node n) value →
      Blank after → MemberTexts members rest →
      MemberTexts ((name, value) :: members)
        (before ++ (label ++ (gap ++ (value ++ (after ++ ',' :: rest)))))

inductive ObjectText : List (String × List Char) → List Char → Prop where
  | empty {gap : List Char} : Blank gap → ObjectText [] ('{' :: (gap ++ ['}']))
  | members {members : List (String × List Char)} {t : List Char} :
    MemberTexts members t → ObjectText members ('{' :: t)

/-- The documents of the values of some members, under the names of these. -/
def Documents : List (String × List Char) → List (Option String × Node) → Prop :=
  List.Forall₂ fun member entry => entry.1 = some member.1 ∧ Written (.node entry.2) member.2

theorem MemberTexts.exists_written {members : List (String × List Char)} {t : List Char}
    (h : MemberTexts members t) :
    ∃ entries, Written (.members entries) t ∧ Documents members entries := by
  induction h with
  | @last name n _ _ _ _ _ hbefore hname hgap hvalue hafter =>
    exact ⟨[(some name, n)], .lastMember hbefore hname hgap hvalue hafter,
      .cons ⟨rfl, hvalue⟩ .nil⟩
  | @more name n _ _ _ _ _ _ _ hbefore hname hgap hvalue hafter _ ih =>
    obtain ⟨entries, hentries, hdocuments⟩ := ih
    exact ⟨(some name, n) :: entries, .moreMembers hbefore hname hgap hvalue hafter hentries,
      .cons ⟨rfl, hvalue⟩ hdocuments⟩

theorem ObjectText.exists_written {members : List (String × List Char)} {t : List Char}
    (h : ObjectText members t) :
    ∃ entries, Written (.node (.object entries)) t ∧ Documents members entries := by
  cases h with
  | empty hgap => exact ⟨[], .emptyObject hgap, .nil⟩
  | members h =>
    obtain ⟨entries, hentries, hdocuments⟩ := h.exists_written
    exact ⟨entries, .object hentries, hdocuments⟩

theorem decode_of_written {α : Type} {decode : Decoder α} {n : Node} {before t after : List Char}
    (hbefore : Blank before) (ht : Written (.node n) t) (hafter : Blank after) :
    Json.decode decode (String.ofList (before ++ (t ++ after))) = decode depthLimit n := by
  have hempty : skipSpace after = [] := by
    have hskip := skipSpace_blank hafter []
    rwa [List.append_nil] at hskip
  rw [Json.decode, String.toList_ofList, Decoder.run, Node.read_written hbefore ht hafter]
  cases hdecode : decode depthLimit n with
  | error cause => simp [hdecode, bind, Except.bind]
  | ok a => simp [hdecode, hempty, bind, Except.bind, pure, Except.pure]

/-! ## Records of members that are no containers -/

namespace Decoder

variable {α σ : Type}

/-- Members that are read alike however many containers may be entered. -/
def Shallow (fields : List (Field σ)) : Prop :=
  ∀ field ∈ fields, ∀ depth depth' node draft,
    field.read depth node draft = field.read depth' node draft

theorem text_depth (depth depth' : Nat) (node : Node) : text depth node = text depth' node := by
  cases node with
  | string s => cases s <;> rfl
  | _ => rfl

theorem bool_depth (depth depth' : Nat) (node : Node) : bool depth node = bool depth' node := by
  cases node <;> rfl

theorem recordMembers_depth {fields : List (Field σ)} (h : Shallow fields) (depth depth' : Nat)
    (members : List (Option String × Node)) (draft : σ) :
    recordMembers fields depth members draft = recordMembers fields depth' members draft := by
  induction members generalizing draft with
  | nil => rfl
  | cons member rest ih =>
    obtain ⟨name, node⟩ := member
    cases name with
    | none => rfl
    | some name =>
      simp only [recordMembers, ih]
      cases hfind : fields.find? (·.name == name) with
      | none => rfl
      | some field =>
        simp only [h field (List.mem_of_find?_eq_some hfind) depth depth']

theorem recordItems_depth {fields : List (Field σ)} (h : Shallow fields) (depth depth' : Nat)
    (nodes : List Node) (draft : σ) :
    recordItems depth fields nodes draft = recordItems depth' fields nodes draft := by
  induction fields generalizing nodes draft with
  | nil => cases nodes <;> rfl
  | cons field fields ih =>
    have hrest : Shallow fields := fun other hother => h other (List.mem_cons_of_mem _ hother)
    cases nodes with
    | nil => simp only [recordItems, ih hrest]
    | cons node nodes =>
      simp only [recordItems, ih hrest, h field List.mem_cons_self depth depth']

theorem record_depth {fields : List (Field σ)} (h : Shallow fields) (start : σ)
    (finish : σ → Option α) (depth depth' : Nat) (node : Node) :
    record fields start finish (depth + 1) node = record fields start finish (depth' + 1) node := by
  cases node with
  | object members => simp only [record, recordMembers_depth h depth depth']
  | array nodes => simp only [record, recordItems_depth h depth depth']
  | _ => rfl

end Decoder
end Json

theorem FieldSpec.decoder_depth (depth depth' : Nat) (node : Json.Node) :
    decoder (depth + 1) node = decoder (depth' + 1) node := by
  apply Decoder.record_depth
  intro field hfield depth depth' node draft
  simp only [draftFields, List.mem_cons, List.not_mem_nil, or_false] at hfield
  rcases hfield with rfl | rfl | rfl
  · simp only [Decoder.field, FieldType.decoder, Decoder.text_depth depth depth']
  · simp only [Decoder.field, Decoder.bool_depth depth depth']
  · simp only [Decoder.field, Decoder.text_depth depth depth']

namespace Schema

/-! ## Schemas decoded from texts -/

variable {depth : Nat} {name : String} {node : Json.Node}
  {members : List (Option String × Json.Node)} {entries : List (String × FieldSpec)}

/-- Fields that the values of some members decode to, under the names of these. -/
def Fields : List (String × List Char) → List (String × FieldSpec) → Prop :=
  List.Forall₂ fun member entry => member.1 = entry.1 ∧
    Json.decode FieldSpec.decoder (String.ofList member.2) = .ok entry.2

/-- Members that pass all. -/
structure Sound (members : List (String × List Char)) : Prop where
  decode : ∀ member ∈ members, ∃ field,
    Json.decode FieldSpec.decoder (String.ofList member.2) = .ok field
  distinct : (members.map (·.1)).Nodup

variable {texts front back : List (String × List Char)} {value : List Char}

theorem decode_value (h : Json.Written (.node node) value) (depth : Nat) :
    Json.decode FieldSpec.decoder (String.ofList value) = FieldSpec.decoder (depth + 1) node := by
  have hdecode : Json.decode FieldSpec.decoder (String.ofList ([] ++ (value ++ []))) =
      FieldSpec.decoder (126 + 1) node := Json.decode_of_written Json.blank_nil h Json.blank_nil
  rw [List.nil_append, List.append_nil] at hdecode
  rw [hdecode, FieldSpec.decoder_depth 126 depth]

theorem Fields.names_eq (h : Fields texts entries) :
    texts.map (·.1) = entries.map (·.1) := by
  induction h with
  | nil => rfl
  | cons hmember _ ih => rw [List.map_cons, List.map_cons, hmember.1, ih]

theorem Sound.exists_fields (h : Sound texts) :
    ∃ entries, Fields texts entries ∧ (entries.map (·.1)).Nodup := by
  obtain ⟨hdecode, hdistinct⟩ := h
  suffices hfields : ∃ entries, Fields texts entries by
    obtain ⟨entries, hentries⟩ := hfields
    exact ⟨entries, hentries, hentries.names_eq ▸ hdistinct⟩
  clear hdistinct
  induction texts with
  | nil => exact ⟨[], .nil⟩
  | cons member texts ih =>
    obtain ⟨field, hfield⟩ := hdecode member List.mem_cons_self
    obtain ⟨entries, hentries⟩ := ih fun other hother =>
      hdecode other (List.mem_cons_of_mem _ hother)
    exact ⟨(member.1, field) :: entries, .cons ⟨rfl, hfield⟩ hentries⟩

theorem Fields.sound (h : Fields texts entries) (hnodup : (entries.map (·.1)).Nodup) :
    Sound texts := by
  refine ⟨?_, h.names_eq ▸ hnodup⟩
  clear hnodup
  induction h with
  | nil => exact fun _ hmember => (by cases hmember)
  | @cons member entry _ _ hmember _ ih =>
    intro other hother
    rcases List.mem_cons.mp hother with rfl | hother
    · exact ⟨entry.2, hmember.2⟩
    · exact ih other hother

theorem decodes_iff (h : Json.Documents texts members) :
    Decodes (depth + 1) members entries ↔ Fields texts entries := by
  induction h generalizing entries with
  | nil =>
    constructor
    · intro hdecodes
      cases hdecodes
      exact .nil
    · intro hfields
      cases hfields
      exact .nil
  | @cons text member texts members hmember _ ih =>
    obtain ⟨hname, hvalue⟩ := hmember
    constructor
    · intro hdecodes
      cases hdecodes with
      | cons hentry hrest =>
        refine .cons ⟨?_, ?_⟩ (ih.mp hrest)
        · exact Option.some.inj (hname.symm.trans hentry.1)
        · rw [decode_value hvalue depth, hentry.2]
    · intro hfields
      cases hfields with
      | cons hentry hrest =>
        refine .cons ⟨?_, ?_⟩ (ih.mpr hrest)
        · rw [hname, hentry.1]
        · rw [← decode_value hvalue depth, hentry.2]

theorem documents_split (h : Json.Documents (front ++ (name, value) :: back) members) :
    ∃ before node after, members = before ++ (some name, node) :: after ∧
      Json.Documents front before ∧ Json.Written (.node node) value := by
  induction front generalizing members with
  | nil =>
    cases h with
    | @cons _ member _ after hmember _ =>
      obtain ⟨memberName, node⟩ := member
      obtain ⟨rfl, hvalue⟩ : memberName = some name ∧ Json.Written (.node node) value := hmember
      exact ⟨[], node, after, rfl, .nil, hvalue⟩
  | cons first front ih =>
    cases h with
    | @cons _ member _ _ hmember hrest =>
      obtain ⟨before, node, after, rfl, hbefore, hvalue⟩ := ih hrest
      exact ⟨member :: before, node, after, rfl, .cons hmember hbefore, hvalue⟩

/-- What a schema read from the text of an object with some members is, and what stops the
reading. -/
structure ReadExactly (members : List (String × List Char)) (text : String) : Prop where
  succeeds_iff : (∃ schema, Json.decode decoder text = .ok schema) ↔ Sound members
  lists : ∀ schema, Json.decode decoder text = .ok schema → Fields members schema.fields
  repeated : ∀ front name value back field, members = front ++ (name, value) :: back →
    Sound front → name ∈ front.map (·.1) →
    Json.decode FieldSpec.decoder (String.ofList value) = .ok field →
    Json.decode decoder text = .error (.duplicateField name)
  undecodable : ∀ front name value back cause, members = front ++ (name, value) :: back →
    Sound front → Json.decode FieldSpec.decoder (String.ofList value) = .error cause →
    Json.decode decoder text = .error cause
  again : ∀ schema, Json.decode decoder text = .ok schema →
    Json.decode decoder schema.toJson.text = .ok schema

/-- Up to the first member that does not pass, the members of an object are put into the schema. -/
theorem decodeMembers_front (depth : Nat)
    (h : Json.Documents (front ++ (name, value) :: back) members) (hfront : Sound front) :
    ∃ entries node after, front.map (·.1) = entries.map (·.1) ∧ Json.Written (.node node) value ∧
      decodeMembers (depth + 1) members empty =
        decodeMembers (depth + 1) ((some name, node) :: after) ⟨entries⟩ := by
  obtain ⟨before, node, after, rfl, hbefore, hvalue⟩ := documents_split h
  obtain ⟨entries, hentries, hnodup⟩ := hfront.exists_fields
  have hnames : (empty.names ++ entries.map (·.1)).Nodup := hnodup
  exact ⟨entries, node, after, hentries.names_eq, hvalue,
    decodeMembers_append ((decodes_iff hbefore).mpr hentries) hnames⟩

theorem decode_objectText {members : List (String × List Char)} {before t after : List Char}
    (hbefore : Blank before) (ht : Json.ObjectText members t) (hafter : Blank after) :
    ReadExactly members (String.ofList (before ++ (t ++ after))) := by
  obtain ⟨entries, hentries, hdocuments⟩ := ht.exists_written
  have hdecode : Json.decode decoder (String.ofList (before ++ (t ++ after))) =
      decoder (126 + 1) (.object entries) := Json.decode_of_written hbefore hentries hafter
  have hok : ∀ schema, decoder (126 + 1) (.object entries) = .ok schema ↔
      Fields members schema.fields ∧ schema.names.Nodup := by
    intro schema
    rw [decoder_eq_ok_iff, decodes_iff hdocuments]
  constructor
  case succeeds_iff =>
    rw [hdecode]
    constructor
    · intro h
      obtain ⟨schema, hschema⟩ := h
      obtain ⟨hfields, hnodup⟩ := (hok schema).mp hschema
      exact hfields.sound hnodup
    · intro h
      obtain ⟨fields, hfields, hnodup⟩ := h.exists_fields
      exact ⟨⟨fields⟩, (hok ⟨fields⟩).mpr ⟨hfields, hnodup⟩⟩
  case lists =>
    intro schema h
    rw [hdecode] at h
    exact ((hok schema).mp h).1
  case repeated =>
    intro front name value back field heq hfront hmem hfield
    rw [heq] at hdocuments
    obtain ⟨fields, node, rest, hnames, hvalue, hmembers⟩ :=
      decodeMembers_front 125 hdocuments hfront
    rw [decode_value hvalue 125] at hfield
    have hold : name ∈ (Schema.mk fields).names := by
      rw [names, ← hnames]
      exact hmem
    rw [hdecode, decoder, hmembers, decodeMembers_cons hfield, if_pos hold]
  case undecodable =>
    intro front name value back cause heq hfront hcause
    rw [heq] at hdocuments
    obtain ⟨fields, node, rest, hnames, hvalue, hmembers⟩ :=
      decodeMembers_front 125 hdocuments hfront
    rw [decode_value hvalue 125] at hcause
    rw [hdecode, decoder, hmembers, decodeMembers_undecodable hcause]
  case again =>
    intro schema h
    rw [hdecode] at h
    exact Json.Value.decode_text schema.integral_toJson
      (decoder_toJson (wellFormed_of_decoder h) 125)

/-- Two members under one name, which is spelled in two ways. -/
theorem decode_objectText_spelledTwice :
    let text := "\x7b\"a\":\x7b\"type\":\"date\"\x7d,\"\\u0061\":\x7b\"type\":\"number\"\x7d\x7d"
    Json.ObjectText [("a", "\x7b\"type\":\"date\"\x7d".toList),
        ("a", "\x7b\"type\":\"number\"\x7d".toList)] text.toList ∧
      Json.decode decoder text = .error (.duplicateField "a") := by
  have hvalue : ∀ type : String, Json.Written (.node (.ofValue (.object [("type", .string type)])))
      (Json.Value.object [("type", .string type)]).compact :=
    fun type => Json.Value.written_compact _ ⟨trivial, trivial⟩
  have hplain : NameText (some "a") "\"a\":".toList := Json.nameText_quote "a" Json.blank_nil
  have hspelled : NameText (some "a") "\"\\u0061\":".toList := by
    have hbody : Json.StringBody "\\u0061".toList [.ofUnit 97] := .unit (by decide) .nil
    exact NameText.intro hbody Json.blank_nil
  have htext := Json.ObjectText.members
    (.more Json.blank_nil hplain Json.blank_nil (hvalue "date") Json.blank_nil
      (.last Json.blank_nil hspelled Json.blank_nil (hvalue "number") Json.blank_nil))
  have hread := decode_objectText Json.blank_nil htext Json.blank_nil
  refine ⟨htext, hread.repeated [("a", "\x7b\"type\":\"date\"\x7d".toList)] "a"
    "\x7b\"type\":\"number\"\x7d".toList [] ⟨.number, false, ""⟩ rfl ⟨?_, by decide⟩ (by decide)
    (by decide +kernel)⟩
  intro member hmember
  rw [List.mem_singleton.mp hmember]
  exact ⟨⟨.other "date", false, ""⟩, by decide +kernel⟩

end Schema
end Agentry
