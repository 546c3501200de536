import Agentry.Proofs.Spec.Members
import Agentry.Proofs.Spec.Schema
import Mathlib.Data.List.Induction
/-!
# Schemas as ordered maps

A schema starts empty or decoded, and calls put fields into it. Its history is the list of the
fields that it was given, under their names: those of the document, then one of each call. A name
stands where it came first, with the field that it was given last.
-/
namespace Agentry.Schema

variable {schema : Schema} {name other : String} {field old : FieldSpec}
  {fields rest history : List (String × FieldSpec)}

/-! ## One field put in -/

theorem replaceField_none (h : replaceField name field fields = none) :
    name ∉ fields.map (·.1) ∧ insertField name field fields = fields ++ [(name, field)] := by
  induction fields with
  | nil => exact ⟨List.not_mem_nil, rfl⟩
  | cons head rest ih =>
    obtain ⟨n, f⟩ := head
    rw [replaceField] at h
    split at h
    · cases h
    rename_i hn
    obtain ⟨hrest, hinsert⟩ := ih (Option.map_eq_none_iff.mp h)
    rw [insertField, if_neg hn, hinsert, List.map_cons, List.mem_cons, not_or]
    exact ⟨⟨Ne.symm hn, hrest⟩, rfl⟩

theorem replaceField_some (h : replaceField name field fields = some (old, rest)) :
    ∃ before after, fields = before ++ (name, old) :: after ∧ name ∉ before.map (·.1) ∧
      rest = before ++ (name, field) :: after ∧ insertField name field fields = rest := by
  induction fields generalizing rest with
  | nil => cases h
  | cons head tail ih =>
    obtain ⟨n, f⟩ := head
    rw [replaceField] at h
    split at h
    · rename_i hn
      cases h
      exact ⟨[], tail, by rw [hn, List.nil_append], List.not_mem_nil,
        by rw [hn, List.nil_append], by rw [insertField, if_pos hn]⟩
    · rename_i hn
      obtain ⟨⟨found, kept⟩, hfound, heq⟩ := Option.map_eq_some_iff.mp h
      cases heq
      obtain ⟨before, after, rfl, hbefore, rfl, hinsert⟩ := ih hfound
      refine ⟨(n, f) :: before, after, rfl, ?_, rfl, by rw [insertField, if_neg hn, hinsert]⟩
      rw [List.map_cons, List.mem_cons, not_or]
      exact ⟨Ne.symm hn, hbefore⟩

/-- What an insertion can do. -/
theorem exchange_cases (schema : Schema) (name : String) (field : FieldSpec) :
    (name ∉ schema.names ∧ schema.exchange name field = (none, schema.push name field)) ∨
      ∃ before old after, schema.fields = before ++ (name, old) :: after ∧
        name ∉ before.map (·.1) ∧
        schema.exchange name field = (some old, ⟨before ++ (name, field) :: after⟩) := by
  rw [exchange]
  cases h : replaceField name field schema.fields with
  | none => exact Or.inl ⟨(replaceField_none h).1, rfl⟩
  | some found =>
    obtain ⟨old, rest⟩ := found
    obtain ⟨before, after, hfields, hbefore, rfl, -⟩ := replaceField_some h
    exact Or.inr ⟨before, old, after, hfields, hbefore, rfl⟩

theorem insert_eq_exchange (schema : Schema) (name : String) (field : FieldSpec) :
    schema.insert name field = (schema.exchange name field).2 := by
  rw [insert, exchange]
  cases h : replaceField name field schema.fields with
  | none => rw [(replaceField_none h).2, push]
  | some found =>
    obtain ⟨old, rest⟩ := found
    obtain ⟨-, -, -, -, -, hinsert⟩ := replaceField_some h
    rw [hinsert]

theorem find?_eq_none (h : name ∉ fields.map (·.1)) : fields.find? (·.1 == name) = none := by
  rw [List.find?_eq_none]
  intro entry hentry heq
  exact h (List.mem_map.mpr ⟨entry, hentry, eq_of_beq heq⟩)

theorem get?_push (h : name ∉ schema.names) (other : String) :
    (schema.push name field).get? other =
      if other = name then some field else schema.get? other := by
  rw [get?, get?, push, List.find?_append]
  by_cases hother : other = name
  · rw [hother, if_pos rfl, find?_eq_none h]
    simp
  · rw [if_neg hother, List.find?_singleton, if_neg (by simpa using Ne.symm hother), Option.or_none]

theorem get?_exchange (schema : Schema) (name : String) (field : FieldSpec) (other : String) :
    (schema.exchange name field).2.get? other =
      if other = name then some field else schema.get? other := by
  rcases exchange_cases schema name field with ⟨hnew, h⟩ | ⟨before, old, after, hfields, hbefore, h⟩
  · rw [h]
    exact get?_push hnew other
  · rw [h, get?, get?, hfields, List.find?_append, List.find?_append, List.find?_cons,
      List.find?_cons]
    by_cases hother : other = name
    · rw [hother, if_pos rfl, find?_eq_none hbefore]
      simp
    · have hname : (name == other) = false := beq_eq_false_iff_ne.mpr (Ne.symm hother)
      simp [hother, hname]

theorem exchange_fst (schema : Schema) (name : String) (field : FieldSpec) :
    (schema.exchange name field).1 = schema.get? name := by
  rcases exchange_cases schema name field with ⟨hnew, h⟩ | ⟨before, old, after, hfields, hbefore, h⟩
  · rw [h, get?, find?_eq_none hnew]
    rfl
  · rw [h, get?, hfields, List.find?_append, find?_eq_none hbefore]
    simp

theorem insert_of_new (h : name ∉ schema.names) (field : FieldSpec) :
    schema.insert name field = schema.push name field := by
  rw [insert_eq_exchange]
  rcases exchange_cases schema name field with ⟨-, hnew⟩ | ⟨before, old, after, hfields, -, -⟩
  · rw [hnew]
  · have hold : name ∈ schema.names := by simp [names, hfields]
    exact absurd hold h

/-! ## Fields put in one after the other -/

/-- What is called on a schema: an insertion, which hands back what it replaced, or its chained
form. -/
inductive Call where
  | exchange (name : String) (field : FieldSpec)
  | insert (name : String) (field : FieldSpec)

namespace Call

def entry : Call → String × FieldSpec
  | exchange name field => (name, field)
  | insert name field => (name, field)

def run (schema : Schema) : Call → Schema
  | exchange name field => (schema.exchange name field).2
  | insert name field => schema.insert name field

theorem run_eq (schema : Schema) (call : Call) :
    call.run schema = schema.insert call.entry.1 call.entry.2 := by
  cases call with
  | exchange name field => exact (insert_eq_exchange schema name field).symm
  | insert name field => rfl

end Call

def callAll (schema : Schema) (calls : List Call) : Schema :=
  calls.foldl Call.run schema

/-- Schemas that nothing was put into, with the fields that they were given. -/
inductive Begun : List (String × FieldSpec) → Schema → Prop where
  | empty : Begun [] .empty
  | decoded {depth : Nat} {members : List (Option String × Json.Node)}
    {fields : List (String × FieldSpec)} {schema : Schema} :
    decoder (depth + 1) (.object members) = .ok schema → Decodes depth members fields →
      Begun fields schema

/-- Each name where it came first in the history, with the field that it was given last. -/
structure Follows (history : List (String × FieldSpec)) (schema : Schema) : Prop where
  distinct : schema.names.Nodup
  order : schema.names = (history.map (·.1)).eraseDups
  last : ∀ name, schema.get? name = (history.findRev? (·.1 == name)).map (·.2)

theorem eraseDups_concat (names : List String) (name : String) :
    (names ++ [name]).eraseDups =
      if name ∈ names then names.eraseDups else names.eraseDups ++ [name] := by
  rw [List.eraseDups_append]
  split
  · rename_i hold
    simp [List.removeAll, hold]
  · rename_i hnew
    simp [List.removeAll, hnew, List.eraseDups_cons]

theorem Follows.mem_names (h : Follows history schema) :
    name ∈ schema.names ↔ name ∈ history.map (·.1) := by
  rw [h.order, List.mem_eraseDups]

/-- One call more. -/
theorem Follows.insert (h : Follows history schema) (name : String) (field : FieldSpec) :
    Follows (history ++ [(name, field)]) (schema.insert name field) := by
  constructor
  case distinct =>
    rw [names_insert]
    split
    · exact h.distinct
    · rename_i hnew
      exact List.concat_eq_append ▸ h.distinct.concat hnew
  case order =>
    simp only [names_insert, List.map_append, List.map_singleton, eraseDups_concat, ← h.order,
      h.mem_names]
  case last =>
    intro other
    rw [insert_eq_exchange, get?_exchange, h.last, List.findRev?_eq_find?_reverse,
      List.findRev?_eq_find?_reverse, List.reverse_append]
    by_cases hother : other = name
    · simp [hother]
    · have hname : (name == other) = false := beq_eq_false_iff_ne.mpr (Ne.symm hother)
      simp [hother, hname]

theorem follows_of_nodup (fields : List (String × FieldSpec)) (h : (fields.map (·.1)).Nodup) :
    Follows fields ⟨fields⟩ := by
  induction fields using List.reverseRecOn with
  | nil => exact ⟨List.nodup_nil, rfl, fun _ => rfl⟩
  | append_singleton fields entry ih =>
    obtain ⟨name, field⟩ := entry
    rw [List.map_append, List.map_singleton, ← List.concat_eq_append, List.nodup_concat] at h
    have hinsert : (Schema.mk fields).insert name field = ⟨fields ++ [(name, field)]⟩ :=
      insert_of_new h.1 field
    rw [← hinsert]
    exact (ih h.2).insert name field

theorem Decodes.unique {depth : Nat} {members : List (Option String × Json.Node)}
    (h : Decodes depth members fields) (h' : Decodes depth members rest) : fields = rest := by
  apply List.right_unique_forall₂' _ h h'
  intro member entry other hentry hother
  have hname : entry.1 = other.1 := Option.some.inj (hentry.1.symm.trans hother.1)
  have hfield : entry.2 = other.2 := Except.ok.inj (hentry.2.symm.trans hother.2)
  exact Prod.ext hname hfield

theorem Begun.follows (h : Begun history schema) : Follows history schema := by
  cases h with
  | empty => exact follows_of_nodup [] List.nodup_nil
  | decoded hdecode hdecodes =>
    obtain ⟨hfields, hnodup⟩ := decoder_eq_ok_iff.mp hdecode
    rw [hdecodes.unique hfields]
    exact follows_of_nodup schema.fields hnodup

/-- Every decoded schema is one of these. -/
theorem begun_of_decoder {depth : Nat} {node : Json.Node} (h : decoder depth node = .ok schema) :
    Begun schema.fields schema := by
  obtain ⟨limit, members, rfl, rfl⟩ := exists_of_decoder h
  exact .decoded h (decoder_eq_ok_iff.mp h).1

/-- All calls. -/
theorem Follows.callAll (h : Follows history schema) (calls : List Call) :
    Follows (history ++ calls.map Call.entry) (schema.callAll calls) := by
  induction calls generalizing history schema with
  | nil => rwa [List.map_nil, List.append_nil]
  | cons call calls ih =>
    have hstep : Follows (history ++ [call.entry]) (call.run schema) := by
      rw [call.run_eq]
      exact h.insert call.entry.1 call.entry.2
    rw [List.map_cons, List.append_cons]
    exact ih hstep

/-- What a schema tells about its history, and what the next insertion does. -/
structure OrderedMap (history : List (String × FieldSpec)) (schema : Schema) : Prop
    extends Follows history schema where
  returns : ∀ name field, (schema.exchange name field).1 = schema.get? name
  answers : ∀ name field,
    (schema.exchange name field).1.isSome = true ↔ name ∈ schema.names
  replaces : ∀ name field old, (schema.exchange name field).1 = some old →
    ∃ before after, schema.fields = before ++ (name, old) :: after ∧
      (schema.exchange name field).2.fields = before ++ (name, field) :: after
  appends : ∀ name field, (schema.exchange name field).1 = none →
    (schema.exchange name field).2.fields = schema.fields ++ [(name, field)]
  size : ∀ name field, (schema.exchange name field).2.size =
    if name ∈ schema.names then schema.size else schema.size + 1
  chained : ∀ name field, schema.insert name field = (schema.exchange name field).2

theorem callAll_orderedMap (h : Begun history schema) (calls : List Call) :
    OrderedMap (history ++ calls.map Call.entry) (schema.callAll calls) := by
  have hfollows := h.follows.callAll calls
  generalize schema.callAll calls = schema at *
  constructor
  case toFollows => exact hfollows
  case returns => exact exchange_fst schema
  case answers =>
    intro name field
    rcases exchange_cases schema name field with ⟨hnew, h⟩ | ⟨before, old, after, hfields, -, h⟩
    · simp [h, hnew]
    · simp [h, names, hfields]
  case replaces =>
    intro name field old hold
    rcases exchange_cases schema name field with ⟨-, h⟩ | ⟨before, old', after, hfields, -, h⟩
    · rw [h] at hold
      cases hold
    · rw [h] at hold ⊢
      cases hold
      exact ⟨before, after, hfields, rfl⟩
  case appends =>
    intro name field hnone
    rcases exchange_cases schema name field with ⟨-, h⟩ | ⟨before, old, after, -, -, h⟩
    · rw [h]
      rfl
    · rw [h] at hnone
      cases hnone
  case size =>
    intro name field
    rcases exchange_cases schema name field with ⟨hnew, h⟩ | ⟨before, old, after, hfields, -, h⟩
    · rw [h, if_neg hnew]
      simp [size, push]
    · have hold : name ∈ schema.names := by simp [names, hfields]
      rw [h, if_pos hold]
      simp [size, hfields]
  case chained => exact insert_eq_exchange schema

/-- Two decoded fields, the first of which is replaced after a third one came. -/
theorem callAll_orderedMap_replaced :
    let typed : Json.Node := .object [(some "type", .string (some "string"))]
    ∃ schema, decoder 2 (.object [(some "b", typed), (some "a", typed)]) = .ok schema ∧
      let last := schema.callAll
        [.insert "c" (.optional .boolean), .exchange "b" (.mandatory .number)]
      last.names = ["b", "a", "c"] ∧ last.get? "b" = some (.mandatory .number) := by
  have hdecode : decoder 2 (.object
      [(some "b", .object [(some "type", .string (some "string"))]),
        (some "a", .object [(some "type", .string (some "string"))])]) =
      .ok ⟨[("b", .optional .string), ("a", .optional .string)]⟩ := by decide +kernel
  have hlast := callAll_orderedMap (begun_of_decoder hdecode)
    [.insert "c" (.optional .boolean), .exchange "b" (.mandatory .number)]
  refine ⟨_, hdecode, hlast.order.trans ?_, (hlast.last "b").trans ?_⟩
  · decide +kernel
  · decide +kernel

end Agentry.Schema
