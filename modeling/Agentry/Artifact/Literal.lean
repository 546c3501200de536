import Agentry.Json.Printer
import Agentry.Spec.Codec
/-!
# Literals of an artifact

A short text is a quoted literal. The prompt and the JSON documents are raw literals: the text
between two quotes with a fence of hashes outside them, one hash longer than any run of hashes that
follows a quote inside the text. A fence has at most 255 hashes, and a raw literal cannot hold a
carriage return; a document never does, since its strings escape it.
-/
namespace Agentry

inductive LiteralError where
  | carriageReturn
  | fenceTooLong (hashes : Nat)
  | controlCharacter (field : String)
  deriving DecidableEq, Repr

def LiteralError.message : LiteralError → String
  | .carriageReturn =>
    "system prompt contains a carriage return, which a raw literal cannot preserve"
  | .fenceTooLong hashes =>
    "system prompt needs a " ++ toString hashes ++ "-hash fence (limit 255)"
  | .controlCharacter field => field ++ " contains a control character that has no literal form"

namespace Literal

/-- The controls that only a raw literal could hold. -/
def isUnwritable (c : Char) : Bool :=
  c.toNat < 0x20 && c != '\n' && c != '\r' && c != '\t'

def checkWritable (field value : String) : Except LiteralError Unit :=
  if value.toList.any isUnwritable then .error (.controlCharacter field) else .ok ()

def quoted (value : String) : List Char :=
  Json.quote value

/-- The longest run of hashes that follows a quote. The first argument counts the hashes since the
last quote, if nothing else came in between. -/
def longestRun : Option Nat → List Char → Nat
  | _, [] => 0
  | run, c :: rest =>
    if c = '"' then longestRun (some 0) rest
    else
      match run with
      | some n => if c = '#' then max (n + 1) (longestRun (some (n + 1)) rest)
        else longestRun none rest
      | none => longestRun none rest

def fenceLength (cs : List Char) : Nat :=
  longestRun none cs + 1

def maxFence : Nat := 255

def hashes (n : Nat) : List Char :=
  List.replicate n '#'

def rawWith (fence : Nat) (cs : List Char) : List Char :=
  'r' :: hashes fence ++ '"' :: cs ++ '"' :: hashes fence

def fenced (cs : List Char) : Except LiteralError (List Char) :=
  let fence := fenceLength cs
  if fence > maxFence then .error (.fenceTooLong fence) else .ok (rawWith fence cs)

def prompt (text : String) : Except LiteralError (List Char) :=
  if text.toList.contains '\r' then .error .carriageReturn else fenced text.toList

def document (json : List Char) : Except LiteralError (List Char) :=
  fenced json

/-- Rows between two delimiters, each on a line of its own. -/
def block (opening closing : Char) (indent : List Char) : List (List Char) → List Char
  | [] => [opening, closing]
  | row :: rows =>
    opening :: '\n' :: indentRow row ++ rows.flatMap (fun r => ',' :: '\n' :: indentRow r) ++
      '\n' :: indent ++ [closing]
where
  indentRow (row : List Char) : List Char := indent ++ ' ' :: ' ' :: ' ' :: ' ' :: row

def toolRow (tool : Tool) : List Char :=
  "\x7b\"id\": ".toList ++ quoted tool.id ++ ", \"displayName\": ".toList ++
    quoted tool.displayName ++ ", \"category\": ".toList ++ quoted tool.category ++ ['\x7d']

def fieldRow (entry : String × FieldSpec) : List Char :=
  quoted entry.1 ++ ": \x7b\"type\": ".toList ++ quoted entry.2.type.name ++
    ", \"required\": ".toList ++ Json.boolText entry.2.required ++
    ", \"description\": ".toList ++ quoted entry.2.description ++ ['\x7d']

def toolsJson (tools : List Tool) (indent : List Char) : List Char :=
  block '[' ']' indent (tools.map toolRow)

def schemaJson (schema : Schema) (indent : List Char) : List Char :=
  block '\x7b' '\x7d' indent (schema.fields.map fieldRow)

end Literal
end Agentry
