import Agentry.Spec.Error
import Agentry.Text.Blank
import Agentry.Text.Lowercase
/-!
# Field types

Five types are known. A document may name any other type, and the name is kept; what a user types in
must be one of the five, in any ASCII case and with blanks around it.
-/
namespace Agentry

inductive FieldType where
  | string
  | number
  | boolean
  | array
  | object
  | other (name : String)
  deriving DecidableEq, Repr

namespace FieldType

def name : FieldType → String
  | .string => "string"
  | .number => "number"
  | .boolean => "boolean"
  | .array => "array"
  | .object => "object"
  | .other name => name

def ofName (name : String) : FieldType :=
  if name = "string" then .string
  else if name = "number" then .number
  else if name = "boolean" then .boolean
  else if name = "array" then .array
  else if name = "object" then .object
  else .other name

def parse (text : String) : Except SpecError FieldType :=
  match ofName (Text.asciiLowercase (Text.trim text)) with
  | .other _ => .error (.unknownFieldType text)
  | known => .ok known

/-- Whether a type is the one that its name stands for. -/
def IsCanonical (type : FieldType) : Prop :=
  ofName type.name = type

instance (type : FieldType) : Decidable type.IsCanonical :=
  inferInstanceAs (Decidable (ofName type.name = type))

theorem name_ofName (name : String) : (ofName name).name = name := by
  unfold ofName
  repeat' split
  all_goals simp_all [FieldType.name]

theorem isCanonical_ofName (name : String) : (ofName name).IsCanonical := by
  rw [IsCanonical, name_ofName]

end FieldType
end Agentry
