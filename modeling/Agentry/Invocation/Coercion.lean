import Agentry.Invocation.Input
import Agentry.Spec.Schema
import Agentry.Text.Blank
import Agentry.Text.Quoted
import Agentry.Text.Search
/-!
# Coercion of arguments

Arguments are texts in the order of the schema's fields, and each becomes a value of its field's
type. A required field without an argument is an error, and so is, under the strict rule, a number
that cannot be read; otherwise such a number is zero. Surplus arguments are ignored.
-/
namespace Agentry

open Decimal (Binary64)
open Json (Value isDigit digitsValue)

inductive CoercionError where
  | missing (field : String)
  | invalidNumber (field text : String)
  deriving DecidableEq, Repr

def CoercionError.message : CoercionError → String
  | .missing field => "missing required parameter: " ++ field
  | .invalidNumber field text => "invalid number for '" ++ field ++ "': " ++ Text.quoted text

namespace Argument

/-- A sign at the front of a text, and the rest. -/
def readSign : List Char → Bool × List Char
  | '-' :: rest => (true, rest)
  | '+' :: rest => (false, rest)
  | cs => (false, cs)

/-- A power of ten that is nothing but a sign and digits. -/
def readPower (cs : List Char) : Option Int :=
  let (negative, digits) := readSign cs
  if digits.isEmpty || !digits.all isDigit then none
  else some (if negative then -(digitsValue digits : Int) else digitsValue digits)

/-- What follows the digits of a number: nothing, or a letter `e` and a power of ten. -/
def readExponent : List Char → Option Int
  | [] => some 0
  | c :: rest => if c = 'e' || c = 'E' then readPower rest else none

/-- Digits after a point, if there is one, and the rest. -/
def readFraction : List Char → List Char × List Char
  | '.' :: rest => (rest.takeWhile isDigit, rest.dropWhile isDigit)
  | cs => ([], cs)

/-- The nearest double to a decimal number, if it is finite. There has to be a digit before or after
the point. -/
def readNumber (cs : List Char) : Option Binary64 := do
  let (negative, cs) := readSign cs
  let whole := cs.takeWhile isDigit
  let (fraction, rest) := readFraction (cs.dropWhile isDigit)
  if whole.isEmpty && fraction.isEmpty then none
  else
    let exponent ← readExponent rest
    Binary64.ofDecimal negative (digitsValue (whole ++ fraction)) (exponent - fraction.length)

/-- Where the whole numbers end that are written without a fraction. -/
def integerLimit : Nat := Nat.pow 2 63

/-- A whole number is an integer, any other number is a double. -/
def numberOf (x : Binary64) : Json.Number :=
  match x.toInt? with
  | some n => if n.natAbs < integerLimit then .integer n else .float x
  | none => .float x

def number? (text : String) : Option Json.Number :=
  (readNumber (Text.trimChars text.toList)).map numberOf

def isTrue (text : String) : Bool :=
  Text.asciiLowercase text = "true"

/-- The trimmed pieces between the commas. -/
def items (text : String) : List String :=
  (Text.splitOn ',' text.toList).map fun piece => String.ofList (Text.trimChars piece)

def value (strict : Bool) (name : String) (type : FieldType) (text : String) :
    Except CoercionError Value :=
  match type with
  | .string => .ok (.string text)
  | .number =>
    match number? text with
    | some n => .ok (.number n)
    | none => if strict then .error (.invalidNumber name text) else .ok (.ofNat 0)
  | .boolean => .ok (.bool (isTrue text))
  | .array => .ok (.strings (items text))
  | .object => .ok (.string text)
  | .other _ => .ok (.string text)

end Argument

namespace Input

/-- Puts each argument under the name of its field, into a record of those before it. -/
def coerceFields (strict : Bool) :
    List (String × FieldSpec) → List String → Input → Except CoercionError Input
  | [], _, record => .ok record
  | (name, field) :: fields, [], record =>
    if field.required then .error (.missing name) else coerceFields strict fields [] record
  | (name, field) :: fields, argument :: arguments, record => do
    let value ← Argument.value strict name field.type argument
    coerceFields strict fields arguments (record.insert name value)

def coerce (schema : Schema) (arguments : List String) (strict : Bool) :
    Except CoercionError Input :=
  coerceFields strict schema.fields arguments .empty

/-- How many arguments no field takes. -/
def surplus (schema : Schema) (arguments : List String) : Nat :=
  arguments.length - schema.size

end Input
end Agentry
