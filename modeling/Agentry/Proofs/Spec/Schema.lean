import Agentry.Spec.Schema
import Mathlib.Data.List.Nodup
/-!
# Fields inserted into a schema

An inserted field takes the place of the one with its name, or comes last. So names stay distinct,
and the types are those that were there and the one that was inserted.
-/
namespace Agentry.Schema

variable {schema : Schema} {name : String} {field : FieldSpec}

theorem names_insertField (name : String) (field : FieldSpec) (fields : List (String × FieldSpec)) :
    (insertField name field fields).map (·.1) =
      if name ∈ fields.map (·.1) then fields.map (·.1) else fields.map (·.1) ++ [name] := by
  induction fields with
  | nil => rfl
  | cons head rest ih =>
    obtain ⟨n, f⟩ := head
    by_cases hn : n = name
    · simp [insertField, hn]
    · simp only [insertField, hn, if_false, List.map_cons, ih, List.mem_cons, Ne.symm hn, false_or]
      split <;> rfl

theorem names_insert (schema : Schema) (name : String) (field : FieldSpec) :
    (schema.insert name field).names =
      if name ∈ schema.names then schema.names else schema.names ++ [name] :=
  names_insertField name field schema.fields

theorem mem_insertField {entry : String × FieldSpec} {fields : List (String × FieldSpec)}
    (h : entry ∈ insertField name field fields) : entry = (name, field) ∨ entry ∈ fields := by
  induction fields with
  | nil => exact Or.inl (List.mem_singleton.mp h)
  | cons head rest ih =>
    obtain ⟨n, f⟩ := head
    rw [insertField] at h
    split at h
    · rename_i hn
      rcases List.mem_cons.mp h with rfl | h
      · exact Or.inl (by rw [hn])
      · exact Or.inr (List.mem_cons_of_mem _ h)
    · rcases List.mem_cons.mp h with rfl | h
      · exact Or.inr List.mem_cons_self
      · exact (ih h).imp_right (List.mem_cons_of_mem _)

theorem wellFormed_insert (h : schema.WellFormed) (htype : field.type.IsCanonical) :
    (schema.insert name field).WellFormed := by
  constructor
  · rw [names_insert]
    split
    · exact h.1
    · rename_i hnew
      exact List.concat_eq_append ▸ h.1.concat hnew
  · intro entry hentry
    rcases mem_insertField hentry with rfl | hentry
    · exact htype
    · exact h.2 entry hentry

end Agentry.Schema
