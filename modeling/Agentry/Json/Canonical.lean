import Agentry.Json.Printer
/-!
# Canonical JSON

The canonical text of a value is its compact text after the members of every object have been put in
the order of their names, code point by code point. The order of array items is kept.
-/
namespace Agentry.Json.Value

def nameLe (a b : String × Value) : Bool :=
  decide (a.1 ≤ b.1)

mutual

def sorted : Value → Value
  | .array items => .array (sortedItems items)
  | .object members => .object ((sortedMembers members).mergeSort nameLe)
  | v => v

def sortedItems : List Value → List Value
  | [] => []
  | item :: rest => sorted item :: sortedItems rest

/-- The members with their values sorted, still in their own order. -/
def sortedMembers : List (String × Value) → List (String × Value)
  | [] => []
  | (name, value) :: rest => (name, sorted value) :: sortedMembers rest

end

def canonical (v : Value) : String :=
  v.sorted.text

end Agentry.Json.Value
