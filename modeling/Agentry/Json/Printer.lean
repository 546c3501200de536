import Agentry.Json.Number
import Agentry.Json.Quote
/-!
# JSON text of a value

Two layouts: the compact one has no blank, the pretty one gives every item and every member a line
of its own, indented by two spaces for each level, and leaves empty containers on one line.
-/
namespace Agentry.Json

def boolText (b : Bool) : List Char :=
  if b then ['t', 'r', 'u', 'e'] else ['f', 'a', 'l', 's', 'e']

def nullText : List Char := ['n', 'u', 'l', 'l']

namespace Value

mutual

def compact : Value → List Char
  | .null => nullText
  | .bool b => boolText b
  | .number n => n.text
  | .string s => quote s
  | .array items => '[' :: compactItems items
  | .object members => '{' :: compactMembers members

/-- The items that follow an opening bracket, and the closing one. -/
def compactItems : List Value → List Char
  | [] => [']']
  | item :: rest => compact item ++ compactMoreItems rest

def compactMoreItems : List Value → List Char
  | [] => [']']
  | item :: rest => ',' :: compact item ++ compactMoreItems rest

/-- The members that follow an opening brace, and the closing one. -/
def compactMembers : List (String × Value) → List Char
  | [] => ['}']
  | (name, value) :: rest => quote name ++ ':' :: compact value ++ compactMoreMembers rest

def compactMoreMembers : List (String × Value) → List Char
  | [] => ['}']
  | (name, value) :: rest => ',' :: quote name ++ ':' :: compact value ++ compactMoreMembers rest

end

/-- A line end and the indentation of a level. -/
def newline (level : Nat) : List Char :=
  '\n' :: List.replicate (2 * level) ' '

mutual

def prettyAt (level : Nat) : Value → List Char
  | .null => nullText
  | .bool b => boolText b
  | .number n => n.text
  | .string s => quote s
  | .array [] => ['[', ']']
  | .array (item :: rest) =>
    '[' :: newline (level + 1) ++ prettyAt (level + 1) item ++ prettyItems (level + 1) rest ++
      newline level ++ [']']
  | .object [] => ['{', '}']
  | .object ((name, value) :: rest) =>
    '{' :: newline (level + 1) ++ quote name ++ ':' :: ' ' :: prettyAt (level + 1) value ++
      prettyMembers (level + 1) rest ++ newline level ++ ['}']

def prettyItems (level : Nat) : List Value → List Char
  | [] => []
  | item :: rest => ',' :: newline level ++ prettyAt level item ++ prettyItems level rest

def prettyMembers (level : Nat) : List (String × Value) → List Char
  | [] => []
  | (name, value) :: rest =>
    ',' :: newline level ++ quote name ++ ':' :: ' ' :: prettyAt level value ++
      prettyMembers level rest

end

def text (v : Value) : String := String.ofList v.compact

def prettyText (v : Value) : String := String.ofList (v.prettyAt 0)

end Value
end Agentry.Json
