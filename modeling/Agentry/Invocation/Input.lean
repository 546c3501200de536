import Agentry.Json.Number
/-!
# Input records

A behavior is given a record of named values, in the order of the input schema. Each accessor
answers only for a value of its own type.
-/
namespace Agentry

open Json (Value)

structure Input where
  fields : List (String × Value)

namespace Input

def empty : Input := ⟨[]⟩

def insert (input : Input) (name : String) (value : Value) : Input :=
  ⟨Value.setMember name value input.fields⟩

def get? (input : Input) (name : String) : Option Value :=
  Value.member? name input.fields

def text? (input : Input) (name : String) : Option String :=
  match input.get? name with
  | some (.string s) => some s
  | _ => none

/-- A number as a double, integers rounded to the nearest one. -/
def number? (input : Input) (name : String) : Option Decimal.Binary64 :=
  match input.get? name with
  | some (.number (.integer n)) => Decimal.Binary64.ofInt n
  | some (.number (.float x)) => some x
  | _ => none

def bool? (input : Input) (name : String) : Option Bool :=
  match input.get? name with
  | some (.bool b) => some b
  | _ => none

def textItem : Value → Option String
  | .string s => some s
  | _ => none

/-- The items of an array that are texts. -/
def list? (input : Input) (name : String) : Option (List String) :=
  match input.get? name with
  | some (.array items) => some (items.filterMap textItem)
  | _ => none

def contains (input : Input) (name : String) : Bool :=
  (input.get? name).isSome

def size (input : Input) : Nat := input.fields.length

def isEmpty (input : Input) : Bool := input.fields.isEmpty

def toJson (input : Input) : Value := .object input.fields

end Input
end Agentry
