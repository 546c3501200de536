import Agentry.Artifact.Parsed
/-!
# Reading by offsets

A reader that holds offsets in octets slices the text between two of them, shifts what it found in a
slice by the offset where the slice begins, and counts over octets to the end of a document. A slice
of the text has to lie within it and between two characters, a slice of its octets only within
them, and no offset or count can fall below zero. Where one does there is no answer.
-/
namespace Agentry.Sliced

open Artifact (Reading decoded digestStatus issueOf valueOr)
open Agentry.Balanced (utf8Size)
open Json (Decoder)

/-- Two offsets in octets, the second one behind the last octet. -/
structure Extent where
  start : Nat
  stop : Nat
  deriving DecidableEq, Repr

def Extent.shift (extent : Extent) (origin : Nat) : Extent :=
  ⟨origin + extent.start, origin + extent.stop⟩

/-- The text on the two sides of an offset, unless the offset lies inside a character or behind the
end. -/
def split? : Nat → List Char → Option (List Char × List Char)
  | 0, cs => some ([], cs)
  | _ + 1, [] => none
  | n + 1, c :: cs =>
    if c.utf8Size ≤ n + 1 then
      (split? (n + 1 - c.utf8Size) cs).map fun (before, after) => (c :: before, after)
    else none

/-- The text between two offsets. -/
def slice? (cs : List Char) (extent : Extent) : Option (List Char) := do
  let (_, rest) ← split? extent.start cs
  if extent.start ≤ extent.stop then
    let (literal, _) ← split? (extent.stop - extent.start) rest
    return literal
  else none

/-! ## Octets -/

def octets (cs : List Char) : List UInt8 :=
  cs.flatMap String.utf8EncodeChar

def octetsIn? (bytes : List UInt8) (extent : Extent) : Option (List UInt8) :=
  if extent.start ≤ extent.stop ∧ extent.stop ≤ bytes.length then
    some ((bytes.take extent.stop).drop extent.start)
  else none

def octet (c : Char) : UInt8 := UInt8.ofNat c.toNat

/-- The offset of the delimiter that closes the last open one, in octets of which the first has the
offset `n`. -/
def closing? (opening closing : UInt8) :
    (depth : Nat) → (inString escaped : Bool) → (n : Nat) → List UInt8 →
      Option (Except ScanError Nat)
  | depth, _, _, _, [] => some (.error (.unterminated depth))
  | depth, true, true, n, _ :: rest => closing? opening closing depth true false (n + 1) rest
  | depth, true, false, n, b :: rest =>
    closing? opening closing depth (b != octet '"') (b == octet '\\') (n + 1) rest
  | depth, false, escaped, n, b :: rest =>
    if b = octet '"' then closing? opening closing depth true escaped (n + 1) rest
    else if b = opening then closing? opening closing (depth + 1) false escaped (n + 1) rest
    else if b = closing then
      match depth with
      | 0 => none
      | 1 => some (.ok n)
      | depth + 2 => closing? opening closing (depth + 1) false escaped (n + 1) rest
    else closing? opening closing depth false escaped (n + 1) rest

/-- The extent of the literal that the first opening delimiter on a line begins. -/
def balanced? (bytes : List UInt8) (origin : Nat) (opening closing : UInt8) :
    Option (Except ScanError Extent) := do
  let rest ← octetsIn? bytes ⟨origin, bytes.length⟩
  let lineEnd := ((rest.findIdx? (· == octet '\n')).map (origin + ·)).getD bytes.length
  let line ← octetsIn? bytes ⟨origin, lineEnd⟩
  match line.findIdx? (· == opening) with
  | none => return .error .noOpener
  | some p =>
    let start := origin + p
    let inner ← octetsIn? bytes ⟨start + 1, bytes.length⟩
    let found ← closing? opening closing 1 false false 0 inner
    return found.map fun n => ⟨start, start + 1 + n + 1⟩

/-! ## The prompt -/

/-- The offset at which the rest of a text begins. -/
def offsetOf (cs rest : List Char) : Nat :=
  utf8Size cs - utf8Size rest

/-- The extent of a literal that `after` follows. -/
def extentOf (cs literal after : List Char) : Extent :=
  ⟨offsetOf cs (literal ++ after), offsetOf cs after⟩

def quotedPrompt? (cs : List Char) : Option (Reading String × Option Extent) :=
  match Label.find SpecPart.prompt.labels (Label.quotedLiteral fun _ => true) cs with
  | none => some (.error .labelNotFound, none)
  | some (literal, after) => do
    let extent := extentOf cs literal after
    let literal ← slice? cs extent
    return (decoded Decoder.text literal, some extent)

/-- The prompt and the extent of its whole literal, which begins with an `r`, the hashes and a quote
in front of the content. -/
def prompt? (cs : List Char) : Option (Reading String × Option Extent) :=
  match Label.find SpecPart.prompt.labels Label.rawOpening cs with
  | none => quotedPrompt? cs
  | some (hashes, body) => do
    let start := offsetOf cs body
    let content ← slice? cs ⟨start, utf8Size cs⟩
    match Text.cut ('"' :: hashes) content with
    | none => return (.error .unterminated, none)
    | some (found, _) =>
      let stop := start + utf8Size found
      let prompt ← slice? cs ⟨start, stop⟩
      if utf8Size hashes + 2 ≤ start then
        return (.ok (String.ofList prompt),
          some ⟨start - utf8Size hashes - 2, stop + utf8Size ('"' :: hashes)⟩)
      else none

/-! ## The other parts -/

/-- The extents outside the literal of the prompt. -/
def spans (cs : List Char) : Option Extent → List Extent
  | none => [⟨0, utf8Size cs⟩]
  | some prompt => [⟨0, prompt.start⟩, ⟨prompt.stop, utf8Size cs⟩]

/-- What a search finds in the first slice where it finds something, and where that slice begins. -/
def find? {α : Type} (cs : List Char) (search : List Char → Option α) :
    List Extent → Option (Option (Nat × α))
  | [] => some none
  | extent :: rest => do
    let slice ← slice? cs extent
    match search slice with
    | some found => return some (extent.start, found)
    | none => find? cs search rest

def scalar? (part : SpecPart) (cs : List Char) (spans : List Extent) : Option (Reading String) := do
  let found ← find? cs (fun slice =>
    (Label.find part.labels (Label.quotedLiteral (· != '\n')) slice).map fun (literal, after) =>
      extentOf slice literal after) spans
  match found with
  | none => return .error .labelNotFound
  | some (origin, extent) =>
    let literal ← slice? cs (extent.shift origin)
    return decoded Decoder.text literal

/-- The document that a scan from an offset isolates. -/
def document? {α : Type} (opening closing : Char) (decoder : Decoder α) (cs : List Char)
    (origin : Nat) : Option (Reading α) := do
  match ← balanced? (octets cs) origin (octet opening) (octet closing) with
  | .error cause => return .error (.unbalanced cause)
  | .ok extent =>
    let literal ← slice? cs extent
    return decoded decoder literal

def structured? {α : Type} (part : SpecPart) (opening closing : Char) (decoder : Decoder α)
    (cs : List Char) (spans : List Extent) : Option (Reading α) := do
  let found ← find? cs (fun slice =>
    (Label.find part.labels some slice).map (offsetOf slice)) spans
  match found with
  | none => return .error .labelNotFound
  | some (origin, stop) => document? opening closing decoder cs (origin + stop)

def parseChars? (cs : List Char) : Option ParsedArtifact := do
  let (prompt, extent) ← prompt? cs
  let spans := spans cs extent
  let name ← scalar? .name cs spans
  let description ← scalar? .description cs spans
  let version ← scalar? .version cs spans
  let tools ← structured? .tools '[' ']' (Decoder.list Tool.decoder) cs spans
  let inputs ← structured? .inputs '\x7b' '\x7d' Schema.decoder cs spans
  let outputs ← structured? .outputs '\x7b' '\x7d' Schema.decoder cs spans
  let spec : AgentSpec :=
    ⟨valueOr "" name, valueOr "" description, valueOr "" version, valueOr "" prompt,
      valueOr [] tools, valueOr .empty inputs, valueOr .empty outputs⟩
  return { spec
           issues := issueOf .prompt prompt ++ issueOf .name name ++
             issueOf .description description ++ issueOf .version version ++
             issueOf .tools tools ++ issueOf .inputs inputs ++ issueOf .outputs outputs
           digest := digestStatus cs spec }

def parse? (text : String) : Option ParsedArtifact :=
  parseChars? text.toList

end Agentry.Sliced
