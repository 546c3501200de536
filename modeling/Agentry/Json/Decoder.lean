import Agentry.Json.Document
import Agentry.Json.Basic
/-!
# Decoding documents

A decoder turns a document into a value of some type or finds its first fault in reading order. It
is given the number of containers that it may still enter. What no decoder asks for is passed over:
it has to be JSON, but it may nest without limit and its strings need not stand for text.

A record is decoded into a draft, one member at a time. It is written as an object, where a known
name may come once and other names are passed over, or as an array of its members in their order,
where members that may be missing can be left out from the end.
-/
namespace Agentry.Json

inductive DecodeError where
  | malformed
  | duplicateField (name : String)
  deriving DecidableEq, Repr

def DecodeError.message : DecodeError → String
  | .malformed => "malformed document"
  | .duplicateField name => "duplicate field '" ++ name ++ "'"

abbrev Decoder (α : Type) := Nat → Node → Except DecodeError α

/-- How many containers a document may nest. -/
def depthLimit : Nat := 127

namespace Decoder

def text : Decoder String
  | _, .string (some s) => .ok s
  | _, _ => .error .malformed

def bool : Decoder Bool
  | _, .bool b => .ok b
  | _, _ => .error .malformed

/-- An integer between two bounds, both included. -/
def integer (low high : Int) : Decoder Int
  | _, .number n =>
    match n.value? with
    | some (.integer i) => if low ≤ i && i ≤ high then .ok i else .error .malformed
    | _ => .error .malformed
  | _, _ => .error .malformed

/-- A natural number of at most so many bits. -/
def natural (bits : Nat) : Decoder Nat :=
  fun depth node => (integer 0 (Nat.pow 2 bits - 1 : Nat) depth node).map Int.toNat

/-- A value, or null in its place. -/
def nullable (decode : Decoder α) : Decoder (Option α)
  | _, .null => .ok none
  | depth, node => (decode depth node).map some

/-- A text that `read` understands. -/
def parsed (read : String → Option α) : Decoder α :=
  fun depth node => do
    let s ← text depth node
    (read s).elim (.error .malformed) .ok

/-- Passes over a document that nobody asked for. -/
def passOver (node : Node) : Except DecodeError Unit :=
  if node.intact then .ok () else .error .malformed

def items (decode : Decoder α) (depth : Nat) : List Node → Except DecodeError (List α)
  | [] => .ok []
  | node :: rest => do
    let a ← decode depth node
    let more ← items decode depth rest
    return a :: more

def list (decode : Decoder α) : Decoder (List α)
  | depth + 1, .array nodes => items decode depth nodes
  | _, _ => .error .malformed

/-- One of a few words, alone or as the name of a member that is null. -/
def word (known : String → Option α) : Decoder α
  | _, .string (some s) => (known s).elim (.error .malformed) .ok
  | _ + 1, .object [(some s, .null)] => (known s).elim (.error .malformed) .ok
  | _, _ => .error .malformed

/-- A member of a record with draft `σ`: its name, whether an array may leave it out, whether a
draft has it, and how it is read into one. -/
structure Field (σ : Type) where
  name : String
  optional : Bool
  isSet : σ → Bool
  read : Nat → Node → σ → Except DecodeError σ

/-- A member whose draft is an optional value, seen through a pair of accessors. -/
def field (name : String) (optional : Bool) (decode : Decoder α) (get : σ → Option α)
    (set : σ → α → σ) : Field σ :=
  ⟨name, optional, fun draft => (get draft).isSome,
    fun depth node draft => do return set draft (← decode depth node)⟩

def recordMembers (fields : List (Field σ)) (depth : Nat) :
    List (Option String × Node) → σ → Except DecodeError σ
  | [], draft => .ok draft
  | (none, _) :: _, _ => .error .malformed
  | (some name, node) :: rest, draft =>
    match fields.find? (·.name == name) with
    | some field =>
      if field.isSet draft then .error .malformed
      else do
        let draft ← field.read depth node draft
        recordMembers fields depth rest draft
    | none => do
      passOver node
      recordMembers fields depth rest draft

def recordItems (depth : Nat) : List (Field σ) → List Node → σ → Except DecodeError σ
  | [], [], draft => .ok draft
  | [], _ :: _, _ => .error .malformed
  | field :: fields, [], draft =>
    if field.optional then recordItems depth fields [] draft else .error .malformed
  | field :: fields, node :: rest, draft => do
    let draft ← field.read depth node draft
    recordItems depth fields rest draft

def record (fields : List (Field σ)) (start : σ) (finish : σ → Option α) : Decoder α
  | depth + 1, .object members => do
    let draft ← recordMembers fields depth members start
    (finish draft).elim (.error .malformed) .ok
  | depth + 1, .array nodes => do
    let draft ← recordItems depth fields nodes start
    (finish draft).elim (.error .malformed) .ok
  | _, _ => .error .malformed

mutual

/-- Any value at all. Of a name that comes again the last value stays, in the first place. -/
def valueAt (depth : Nat) : Node → Except DecodeError Value
  | .null => .ok .null
  | .bool b => .ok (.bool b)
  | .number n => n.value?.elim (.error .malformed) fun number => .ok (.number number)
  | .string s => s.elim (.error .malformed) fun s => .ok (.string s)
  | .array nodes =>
    match depth with
    | 0 => .error .malformed
    | depth + 1 => do return .array (← valueItems depth nodes)
  | .object members =>
    match depth with
    | 0 => .error .malformed
    | depth + 1 => do return .object (← valueMembers depth members [])
  | .broken => .error .malformed

def valueItems (depth : Nat) : List Node → Except DecodeError (List Value)
  | [] => .ok []
  | node :: rest => do
    let v ← valueAt depth node
    let more ← valueItems depth rest
    return v :: more

def valueMembers (depth : Nat) :
    List (Option String × Node) → List (String × Value) → Except DecodeError (List (String × Value))
  | [], done => .ok done
  | (none, _) :: _, _ => .error .malformed
  | (some name, node) :: rest, done => do
    let v ← valueAt depth node
    valueMembers depth rest (Value.setMember name v done)

end

def value : Decoder Value := valueAt

/-- Decodes a whole text: one document with nothing but blanks after it. -/
def run (decode : Decoder α) (cs : List Char) : Except DecodeError α := do
  let (node, rest) := Node.read cs
  let a ← decode depthLimit node
  match rest with
  | some after => if (skipSpace after).isEmpty then return a else .error .malformed
  | none => .error .malformed

end Decoder

def decode (decoder : Decoder α) (s : String) : Except DecodeError α :=
  decoder.run s.toList

end Agentry.Json
