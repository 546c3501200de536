import Agentry.Json.Number
import Agentry.Json.Quote
/-!
# JSON documents as they stand in a text

A document keeps what a value forgets: numerals as written, repeated names, and strings that stand
for no text. Reading never fails. Where the text stops being JSON the document has the node
`broken`, as the item or as the member that should have come next, and everything before that place
is kept. So whoever decodes a document meets its faults in the order in which they stand in the
text.
-/
namespace Agentry.Json

inductive Node where
  | null
  | bool (b : Bool)
  | number (n : Numeral)
  | string (text : Option String)
  | array (items : List Node)
  | object (members : List (Option String × Node))
  | broken

def isSpace (c : Char) : Bool :=
  c = ' ' || c = '\n' || c = '\t' || c = '\r'

def skipSpace (cs : List Char) : List Char :=
  cs.dropWhile isSpace

namespace Node

/-- A node, and the text after it unless the node broke off. -/
abbrev Reading (α : Type) := α × Option (List Char)

def ofNumeral? : Option (Numeral × List Char) → Reading Node
  | some (n, rest) => (.number n, some rest)
  | none => (.broken, none)

def readScalar (cs : List Char) : Reading Node :=
  match cs with
  | '"' :: rest =>
    match unquote rest with
    | some (text, after) => (.string text, some after)
    | none => (.broken, none)
  | 'n' :: 'u' :: 'l' :: 'l' :: rest => (.null, some rest)
  | 't' :: 'r' :: 'u' :: 'e' :: rest => (.bool true, some rest)
  | 'f' :: 'a' :: 'l' :: 's' :: 'e' :: rest => (.bool false, some rest)
  | cs => ofNumeral? (Numeral.read cs)

/-- The name of a member and the colon after it. -/
def readName : List Char → Option (Option String × List Char)
  | '"' :: rest =>
    match unquote rest with
    | some (name, after) =>
      match skipSpace after with
      | ':' :: after => some (name, after)
      | _ => none
    | none => none
  | _ => none

mutual

def readAt : Nat → List Char → Reading Node
  | 0, _ => (.broken, none)
  | fuel + 1, cs =>
    match skipSpace cs with
    | '[' :: rest =>
      match skipSpace rest with
      | ']' :: after => (.array [], some after)
      | rest =>
        let (items, after) := readItems fuel rest
        (.array items, after)
    | '{' :: rest =>
      match skipSpace rest with
      | '}' :: after => (.object [], some after)
      | rest =>
        let (members, after) := readMembers fuel rest
        (.object members, after)
    | cs => readScalar cs

def readItems : Nat → List Char → Reading (List Node)
  | 0, _ => ([.broken], none)
  | fuel + 1, cs =>
    match readAt fuel cs with
    | (node, none) => ([node], none)
    | (node, some rest) =>
      match skipSpace rest with
      | ']' :: after => ([node], some after)
      | ',' :: rest =>
        let (items, after) := readItems fuel rest
        (node :: items, after)
      | _ => ([node, .broken], none)

def readMembers : Nat → List Char → Reading (List (Option String × Node))
  | 0, _ => ([(none, .broken)], none)
  | fuel + 1, cs =>
    match readName (skipSpace cs) with
    | none => ([(none, .broken)], none)
    | some (name, rest) =>
      match readAt fuel rest with
      | (node, none) => ([(name, node)], none)
      | (node, some rest) =>
        match skipSpace rest with
        | '}' :: after => ([(name, node)], some after)
        | ',' :: rest =>
          let (members, after) := readMembers fuel rest
          ((name, node) :: members, after)
        | _ => ([(name, node), (none, .broken)], none)

end

/-- Each level of nesting takes two steps and at least one character. -/
def read (cs : List Char) : Reading Node :=
  readAt (2 * cs.length + 2) cs

mutual

/-- Whether a document never stops being JSON. -/
def intact : Node → Bool
  | .broken => false
  | .array items => intactItems items
  | .object members => intactMembers members
  | _ => true

def intactItems : List Node → Bool
  | [] => true
  | node :: rest => intact node && intactItems rest

def intactMembers : List (Option String × Node) → Bool
  | [] => true
  | (_, node) :: rest => intact node && intactMembers rest

end

end Node
end Agentry.Json
