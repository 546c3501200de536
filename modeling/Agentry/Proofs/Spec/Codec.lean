import Agentry.Proofs.Json.Printer
import Agentry.Spec.Codec
import Mathlib.Data.List.Forall2
import Mathlib.Data.List.Nodup
/-!
# Specs read back from their documents

The tools and the fields of a spec decode to themselves. Whatever schema a document decodes to has
distinct names and types that their names stand for, and every such schema is decoded from its own
document.
-/
namespace Agentry

open Json (Value Decoder DecodeError)

/-! ## Decoders -/

namespace Json.Decoder

variable {α σ : Type}

theorem items_ofItems {decode : Decoder α} {write : α → Value} {depth : Nat} {values : List α}
    (h : ∀ a ∈ values, decode depth (Json.Node.ofValue (write a)) = .ok a) :
    items decode depth (Json.Node.ofItems (values.map write)) = .ok values := by
  induction values with
  | nil => rfl
  | cons a rest ih =>
    have hhead := h a List.mem_cons_self
    have htail := ih fun b hb => h b (List.mem_cons_of_mem a hb)
    simp [Json.Node.ofItems, items, hhead, htail, bind, Except.bind, pure, Except.pure]

theorem field_read {name : String} {optional : Bool} {decode : Decoder α} {get : σ → Option α}
    {set : σ → α → σ} {depth : Nat} {node : Json.Node} {draft draft' : σ}
    (h : (field name optional decode get set).read depth node draft = .ok draft') :
    ∃ a, decode depth node = .ok a ∧ set draft a = draft' := by
  simp only [field, bind, Except.bind] at h
  split at h
  · cases h
  · rename_i a ha
    exact ⟨a, ha, Except.ok.inj h⟩

/-- What every member keeps of a draft. -/
def Keeps (P : σ → Prop) (fields : List (Field σ)) : Prop :=
  ∀ field ∈ fields, ∀ depth node draft draft', P draft →
    field.read depth node draft = .ok draft' → P draft'

theorem recordMembers_keeps {P : σ → Prop} {fields : List (Field σ)} (hkeeps : Keeps P fields)
    {depth : Nat} {members : List (Option String × Json.Node)} {draft draft' : σ} (hdraft : P draft)
    (h : recordMembers fields depth members draft = .ok draft') : P draft' := by
  induction members generalizing draft with
  | nil =>
    cases h
    exact hdraft
  | cons member rest ih =>
    obtain ⟨name, node⟩ := member
    cases name with
    | none => cases h
    | some name =>
      rw [recordMembers] at h
      split at h
      · rename_i field hfind
        split at h
        · cases h
        simp only [bind, Except.bind] at h
        split at h
        · cases h
        rename_i next hread
        exact ih (hkeeps field (List.mem_of_find?_eq_some hfind) _ _ _ _ hdraft hread) h
      · simp only [bind, Except.bind] at h
        split at h
        · cases h
        exact ih hdraft h

theorem recordItems_keeps {P : σ → Prop} {fields : List (Field σ)} (hkeeps : Keeps P fields)
    {depth : Nat} {nodes : List Json.Node} {draft draft' : σ} (hdraft : P draft)
    (h : recordItems depth fields nodes draft = .ok draft') : P draft' := by
  induction fields generalizing nodes draft with
  | nil =>
    cases nodes with
    | nil =>
      cases h
      exact hdraft
    | cons node rest => cases h
  | cons field fields ih =>
    have hrest : Keeps P fields := fun other hother => hkeeps other (List.mem_cons_of_mem _ hother)
    cases nodes with
    | nil =>
      rw [recordItems] at h
      split at h
      · exact ih hrest hdraft h
      · cases h
    | cons node rest =>
      simp only [recordItems, bind, Except.bind] at h
      split at h
      · cases h
      rename_i next hread
      exact ih hrest (hkeeps field List.mem_cons_self _ _ _ _ hdraft hread) h

/-- What a draft starts with and every member keeps holds of the draft that is finished. -/
theorem exists_draft_of_record {P : σ → Prop} {fields : List (Field σ)} {start : σ}
    {finish : σ → Option α} (hkeeps : Keeps P fields) (hstart : P start) {depth : Nat}
    {node : Json.Node} {a : α} (h : record fields start finish depth node = .ok a) :
    ∃ draft, P draft ∧ finish draft = some a := by
  have hfinish : ∀ draft, (finish draft).elim (Except.error DecodeError.malformed) .ok = .ok a →
      finish draft = some a := by
    intro draft h
    cases hdraft : finish draft with
    | none =>
      rw [hdraft] at h
      cases h
    | some b =>
      rw [hdraft] at h
      rw [Except.ok.inj h]
  unfold record at h
  split at h
  · simp only [bind, Except.bind] at h
    split at h
    · cases h
    rename_i draft hmembers
    exact ⟨draft, recordMembers_keeps hkeeps hstart hmembers, hfinish draft h⟩
  · simp only [bind, Except.bind] at h
    split at h
    · cases h
    rename_i draft hitems
    exact ⟨draft, recordItems_keeps hkeeps hstart hitems, hfinish draft h⟩
  · cases h

end Json.Decoder

/-! ## Field types -/

namespace FieldType

/-- A type is the one its name stands for unless it spells out the name of a known type. -/
theorem isCanonical_iff (type : FieldType) :
    type.IsCanonical ↔
      ∀ name, type = .other name → name ∉ ["string", "number", "boolean", "array", "object"] := by
  cases type with
  | other name =>
    simp only [IsCanonical, FieldType.name, ofName, other.injEq]
    constructor
    · intro h t ht hmem
      subst ht
      simp only [List.mem_cons, List.not_mem_nil, or_false] at hmem
      rcases hmem with rfl | rfl | rfl | rfl | rfl <;> simp at h
    · intro h
      have hmem := h name rfl
      simp only [List.mem_cons, List.not_mem_nil, or_false, not_or] at hmem
      simp [hmem]
  | _ =>
    refine ⟨fun _ name h => (by cases h), fun _ => ?_⟩
    rfl

theorem decoder_toJson {type : FieldType} (h : type.IsCanonical) (depth : Nat) :
    decoder depth (Json.Node.ofValue type.toJson) = .ok type := by
  simp only [toJson, Json.Node.ofValue, decoder, Decoder.text, Except.map]
  rw [h]

theorem isCanonical_of_decoder {depth : Nat} {node : Json.Node} {type : FieldType}
    (h : decoder depth node = .ok type) : type.IsCanonical := by
  unfold decoder at h
  cases htext : Decoder.text depth node with
  | error cause =>
    rw [htext] at h
    cases h
  | ok name =>
    rw [htext] at h
    rw [← Except.ok.inj h]
    exact isCanonical_ofName name

end FieldType

/-! ## Fields and tools -/

namespace FieldSpec

theorem decoder_toJson {field : FieldSpec} (h : field.type.IsCanonical) (depth : Nat) :
    decoder (depth + 1) (Json.Node.ofValue field.toJson) = .ok field := by
  have htype := FieldType.decoder_toJson h depth
  simp [toJson, Json.Node.ofValue, Json.Node.ofMembers, decoder, Decoder.record,
    Decoder.recordMembers, draftFields, Decoder.field, htype, Decoder.bool, Decoder.text,
    Draft.finish, bind, Except.bind, pure, Except.pure]

theorem isCanonical_of_decoder {depth : Nat} {node : Json.Node} {field : FieldSpec}
    (h : decoder depth node = .ok field) : field.type.IsCanonical := by
  have hkeeps : Decoder.Keeps (fun d : Draft => ∀ type, d.type = some type → type.IsCanonical)
      draftFields := by
    intro member hmember depth node draft draft' hdraft hread
    simp only [draftFields, List.mem_cons, List.not_mem_nil, or_false] at hmember
    rcases hmember with rfl | rfl | rfl <;>
      obtain ⟨value, hvalue, rfl⟩ := Decoder.field_read hread
    · intro type htype
      cases htype
      exact FieldType.isCanonical_of_decoder hvalue
    · exact hdraft
    · exact hdraft
  obtain ⟨draft, hdraft, hfinish⟩ :=
    Decoder.exists_draft_of_record hkeeps (fun _ h => (by cases h)) h
  obtain ⟨type, htype, rfl⟩ := Option.map_eq_some_iff.mp hfinish
  exact hdraft type htype

end FieldSpec

namespace Tool

theorem decoder_toJson (tool : Tool) (depth : Nat) :
    decoder (depth + 1) (Json.Node.ofValue tool.toJson) = .ok tool := by
  simp [toJson, Json.Node.ofValue, Json.Node.ofMembers, decoder, Decoder.record,
    Decoder.recordMembers, draftFields, Decoder.field, Decoder.text, Draft.finish, bind,
    Except.bind, pure, Except.pure]

theorem decoder_listToJson (tools : List Tool) (depth : Nat) :
    Decoder.list decoder (depth + 2) (Json.Node.ofValue (listToJson tools)) = .ok tools :=
  Decoder.items_ofItems fun tool _ => decoder_toJson tool depth

theorem integral_listToJson (tools : List Tool) : (listToJson tools).Integral := by
  rw [listToJson, Value.Integral, Value.integralItems_iff]
  intro item hitem
  obtain ⟨tool, _, rfl⟩ := List.mem_map.mp hitem
  exact ⟨trivial, trivial, trivial, trivial⟩

end Tool

/-! ## Schemas -/

namespace Schema

theorem integral_toJson (schema : Schema) : schema.toJson.Integral := by
  rw [toJson, Value.Integral, Value.integralMembers_iff]
  intro member hmember
  obtain ⟨entry, _, rfl⟩ := List.mem_map.mp hmember
  exact ⟨trivial, trivial, trivial, trivial⟩

theorem contains_iff {schema : Schema} {name : String} :
    schema.contains name = true ↔ name ∈ schema.names := by
  simp only [contains, get?, Option.isSome_map, List.find?_isSome, beq_iff_eq, names, List.mem_map]

/-! ### Member by member -/

/-- Fields that members of a document decode to, under the names of these. -/
def Decodes (depth : Nat) :
    List (Option String × Json.Node) → List (String × FieldSpec) → Prop :=
  List.Forall₂ fun member entry =>
    member.1 = some entry.1 ∧ FieldSpec.decoder depth member.2 = .ok entry.2

variable {depth : Nat} {schema result : Schema} {name : String} {node : Json.Node}
  {field : FieldSpec} {members rest : List (Option String × Json.Node)}
  {entries : List (String × FieldSpec)}

theorem names_push : (schema.push name field).names = schema.names ++ [name] := by
  simp [push, names]

theorem decodeMembers_cons (h : FieldSpec.decoder depth node = .ok field) :
    decodeMembers depth ((some name, node) :: rest) schema =
      if name ∈ schema.names then .error (.duplicateField name)
      else decodeMembers depth rest (schema.push name field) := by
  simp only [decodeMembers, h, bind, Except.bind, contains_iff]

theorem decodeMembers_undecodable {cause : DecodeError}
    (h : FieldSpec.decoder depth node = .error cause) :
    decodeMembers depth ((some name, node) :: rest) schema = .error cause := by
  simp only [decodeMembers, h, bind, Except.bind]

/-- Members that pass are put behind those that are there. -/
theorem decodeMembers_append (h : Decodes depth members entries)
    (hnames : (schema.names ++ entries.map (·.1)).Nodup) :
    decodeMembers depth (members ++ rest) schema =
      decodeMembers depth rest ⟨schema.fields ++ entries⟩ := by
  -- The schema so far has none of the names to come, so no field counts as a repetition.
  induction h generalizing schema with
  | nil => rw [List.nil_append, List.append_nil]
  | @cons member entry members entries hmember _ ih =>
    obtain ⟨memberName, node⟩ := member
    obtain ⟨name, field⟩ := entry
    obtain ⟨rfl, hfield⟩ : memberName = some name ∧ FieldSpec.decoder depth node = .ok field :=
      hmember
    have hnew : name ∉ schema.names := fun hmem =>
      (List.nodup_append.mp hnames).2.2 name hmem name List.mem_cons_self rfl
    have hpush : ((schema.push name field).names ++ entries.map (·.1)).Nodup := by
      simpa [names_push] using hnames
    rw [List.cons_append, decodeMembers_cons hfield, if_neg hnew, ih hpush]
    simp [push]

theorem decodes_of_decodeMembers (hnames : schema.names.Nodup)
    (h : decodeMembers depth members schema = .ok result) :
    ∃ entries, Decodes depth members entries ∧
      (schema.names ++ entries.map (·.1)).Nodup ∧ result.fields = schema.fields ++ entries := by
  induction members generalizing schema with
  | nil =>
    cases h
    exact ⟨[], .nil, by simpa using hnames, (List.append_nil _).symm⟩
  | cons member rest ih =>
    obtain ⟨memberName, node⟩ := member
    cases memberName with
    | none => cases h
    | some name =>
      cases hfield : FieldSpec.decoder depth node with
      | error cause =>
        rw [decodeMembers_undecodable hfield] at h
        cases h
      | ok field =>
        rw [decodeMembers_cons hfield] at h
        split at h
        · cases h
        rename_i hnew
        have hpush : (schema.push name field).names.Nodup := by
          rw [names_push]
          exact List.concat_eq_append ▸ hnames.concat hnew
        obtain ⟨entries, hentries, hnodup, hresult⟩ := ih hpush h
        refine ⟨(name, field) :: entries, .cons ⟨rfl, hfield⟩ hentries, ?_, ?_⟩
        · simpa [names_push] using hnodup
        · simpa [push] using hresult

/-- A schema is decoded from an object whose values decode as its fields, under names that are
distinct. -/
theorem decoder_eq_ok_iff : decoder (depth + 1) (.object members) = .ok result ↔
    Decodes depth members result.fields ∧ result.names.Nodup := by
  constructor
  · intro h
    have hnames : empty.names.Nodup := List.nodup_nil
    obtain ⟨entries, hentries, hnodup, hresult⟩ := decodes_of_decodeMembers hnames h
    have hfields : result.fields = entries := hresult
    rw [names, hfields]
    exact ⟨hentries, hnodup⟩
  · intro h
    have hnames : (empty.names ++ result.fields.map (·.1)).Nodup := h.2
    have hmembers : decodeMembers depth (members ++ []) empty = decodeMembers depth [] result :=
      decodeMembers_append h.1 hnames
    rw [List.append_nil] at hmembers
    exact hmembers

theorem exists_of_decoder {node : Json.Node} (h : decoder depth node = .ok schema) :
    ∃ limit members, depth = limit + 1 ∧ node = .object members := by
  unfold decoder at h
  split at h
  · rename_i limit members
    exact ⟨limit, members, rfl, rfl⟩
  · cases h

theorem decodes_toJson (depth : Nat) (h : ∀ entry ∈ entries, entry.2.type.IsCanonical) :
    Decodes (depth + 1)
      (Json.Node.ofMembers (entries.map fun (name, field) => (name, field.toJson))) entries := by
  induction entries with
  | nil => exact .nil
  | cons entry entries ih =>
    obtain ⟨htype, htypes⟩ := List.forall_mem_cons.mp h
    exact .cons ⟨rfl, FieldSpec.decoder_toJson htype depth⟩ (ih htypes)

theorem decoder_toJson {schema : Schema} (h : schema.WellFormed) (depth : Nat) :
    decoder (depth + 2) (Json.Node.ofValue schema.toJson) = .ok schema :=
  decoder_eq_ok_iff.mpr ⟨decodes_toJson depth h.2, h.1⟩

theorem Decodes.isCanonical (h : Decodes depth members entries) :
    ∀ entry ∈ entries, entry.2.type.IsCanonical := by
  induction h with
  | nil => exact fun _ hentry => absurd hentry List.not_mem_nil
  | cons hmember _ ih =>
    exact List.forall_mem_cons.mpr ⟨FieldSpec.isCanonical_of_decoder hmember.2, ih⟩

theorem wellFormed_empty : empty.WellFormed :=
  ⟨List.nodup_nil, fun _ h => (by cases h)⟩

/-- Every schema that is decoded is well-formed. -/
theorem wellFormed_of_decoder {depth : Nat} {node : Json.Node} {schema : Schema}
    (h : decoder depth node = .ok schema) : schema.WellFormed := by
  obtain ⟨limit, members, rfl, rfl⟩ := exists_of_decoder h
  obtain ⟨hdecodes, hnames⟩ := decoder_eq_ok_iff.mp h
  exact ⟨hnames, hdecodes.isCanonical⟩

end Schema

/-! ## Specs -/

namespace AgentSpec

theorem decoder_toJson {spec : AgentSpec} (h : spec.WellFormed) (depth : Nat) :
    decoder (depth + 3) (Json.Node.ofValue spec.toJson) = .ok spec := by
  have htools := Tool.decoder_listToJson spec.tools depth
  have hinputs := Schema.decoder_toJson h.1 depth
  have houtputs := Schema.decoder_toJson h.2 depth
  simp [toJson, Json.Node.ofValue, Json.Node.ofMembers, decoder, Decoder.record,
    Decoder.recordMembers, draftFields, Decoder.field, htools, hinputs, houtputs, Decoder.text,
    Draft.finish, bind, Except.bind, pure, Except.pure]

theorem integral_toJson (spec : AgentSpec) : spec.toJson.Integral :=
  ⟨trivial, trivial, trivial, trivial, Tool.integral_listToJson _, Schema.integral_toJson _,
    Schema.integral_toJson _, trivial⟩

/-- A spec is decoded from either layout of its document. -/
theorem decode_toJson {spec : AgentSpec} (h : spec.WellFormed) :
    Json.decode decoder spec.toJson.text = .ok spec ∧
      Json.decode decoder spec.toJson.prettyText = .ok spec :=
  ⟨Value.decode_text spec.integral_toJson (decoder_toJson h 124),
    Value.decode_prettyText spec.integral_toJson (decoder_toJson h 124)⟩

/-- Every spec that is decoded is well-formed. -/
theorem wellFormed_of_decoder {depth : Nat} {node : Json.Node} {spec : AgentSpec}
    (h : decoder depth node = .ok spec) : spec.WellFormed := by
  have hkeeps : Decoder.Keeps (fun d : Draft => (∀ schema, d.inputs = some schema →
      schema.WellFormed) ∧ ∀ schema, d.outputs = some schema → schema.WellFormed) draftFields := by
    intro member hmember depth node draft draft' hdraft hread
    simp only [draftFields, List.mem_cons, List.not_mem_nil, or_false] at hmember
    rcases hmember with rfl | rfl | rfl | rfl | rfl | rfl | rfl <;>
      obtain ⟨value, hvalue, rfl⟩ := Decoder.field_read hread
    · exact hdraft
    · exact hdraft
    · exact hdraft
    · exact hdraft
    · exact hdraft
    · refine ⟨fun schema hschema => ?_, hdraft.2⟩
      cases hschema
      exact Schema.wellFormed_of_decoder hvalue
    · refine ⟨hdraft.1, fun schema hschema => ?_⟩
      cases hschema
      exact Schema.wellFormed_of_decoder hvalue
  obtain ⟨draft, ⟨hinputs, houtputs⟩, hfinish⟩ := Decoder.exists_draft_of_record hkeeps
    ⟨fun _ h => (by cases h), fun _ h => (by cases h)⟩ h
  obtain ⟨name, -, rfl⟩ := Option.map_eq_some_iff.mp hfinish
  have hgetD : ∀ found : Option Schema, (∀ schema, found = some schema → schema.WellFormed) →
      (found.getD .empty).WellFormed := by
    intro found hfound
    cases found with
    | none => exact Schema.wellFormed_empty
    | some schema => exact hfound schema rfl
  exact ⟨hgetD _ hinputs, hgetD _ houtputs⟩

end AgentSpec
end Agentry
