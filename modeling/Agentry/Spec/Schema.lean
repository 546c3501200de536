import Agentry.Spec.FieldType
/-!
# Schemas

A schema lists its fields in the order in which their names first came, which is the order of
positional arguments. Inserting a field under a name that is there replaces the field in place.
-/
namespace Agentry

structure FieldSpec where
  type : FieldType
  required : Bool
  description : String
  deriving DecidableEq, Repr

namespace FieldSpec

def mandatory (type : FieldType) : FieldSpec := ⟨type, true, ""⟩

def optional (type : FieldType) : FieldSpec := ⟨type, false, ""⟩

end FieldSpec

structure Schema where
  fields : List (String × FieldSpec)
  deriving DecidableEq, Repr

namespace Schema

def empty : Schema := ⟨[]⟩

def names (schema : Schema) : List String :=
  schema.fields.map (·.1)

def size (schema : Schema) : Nat :=
  schema.fields.length

def isEmpty (schema : Schema) : Bool :=
  schema.fields.isEmpty

def get? (schema : Schema) (name : String) : Option FieldSpec :=
  (schema.fields.find? (·.1 == name)).map (·.2)

def contains (schema : Schema) (name : String) : Bool :=
  (schema.get? name).isSome

def insertField (name : String) (field : FieldSpec) :
    List (String × FieldSpec) → List (String × FieldSpec)
  | [] => [(name, field)]
  | (n, f) :: rest => if n = name then (n, field) :: rest else (n, f) :: insertField name field rest

def insert (schema : Schema) (name : String) (field : FieldSpec) : Schema :=
  ⟨insertField name field schema.fields⟩

/-- A field in the place of the one with its name, which is handed back. -/
def replaceField (name : String) (field : FieldSpec) :
    List (String × FieldSpec) → Option (FieldSpec × List (String × FieldSpec))
  | [] => none
  | (n, f) :: rest =>
    if n = name then some (f, (n, field) :: rest)
    else (replaceField name field rest).map fun (old, rest) => (old, (n, f) :: rest)

/-- A field put after all others, under a name that is not there yet. -/
def push (schema : Schema) (name : String) (field : FieldSpec) : Schema :=
  ⟨schema.fields ++ [(name, field)]⟩

/-- An insertion, and the field that it replaced. -/
def exchange (schema : Schema) (name : String) (field : FieldSpec) : Option FieldSpec × Schema :=
  match replaceField name field schema.fields with
  | some (old, fields) => (some old, ⟨fields⟩)
  | none => (none, schema.push name field)

/-- Distinct names, and types that their names stand for. -/
def WellFormed (schema : Schema) : Prop :=
  schema.names.Nodup ∧ ∀ entry ∈ schema.fields, entry.2.type.IsCanonical

instance (schema : Schema) : Decidable schema.WellFormed :=
  inferInstanceAs (Decidable (schema.names.Nodup ∧ ∀ entry ∈ schema.fields,
    entry.2.type.IsCanonical))

end Schema
end Agentry
