/-!
# Why a spec is refused

Each cause has one wording.
-/
namespace Agentry

inductive SpecError where
  | emptyField (field : String)
  | duplicateField (schema field : String)
  | duplicateTool (id : String)
  | unknownFieldType (text : String)
  deriving DecidableEq, Repr

def SpecError.message : SpecError → String
  | .emptyField field => field ++ " must not be empty"
  | .duplicateField schema field => "duplicate field '" ++ field ++ "' in " ++ schema
  | .duplicateTool id => "duplicate tool id '" ++ id ++ "'"
  | .unknownFieldType text =>
    "unknown field type '" ++ text ++ "' (expected string, number, boolean, array or object)"

end Agentry
