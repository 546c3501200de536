import Agentry.Artifact.Parsed
import Agentry.Proofs.Artifact.Fence
import Agentry.Proofs.Artifact.Lines
import Agentry.Proofs.Json.Grammar
/-!
# Regions of an artifact

Once the line of the prompt is found, its literal splits the artifact into what stands before, the
literal itself, and what stands after it. Documents are then scanned from their labels on.
-/
namespace Agentry.Artifact

open Json (Decoder Written blank_nil)
open Literal (closing hashes rawWith rawWith_append)

theorem around_append (u literal after : List Char) :
    Regions.around (u ++ (literal ++ after)) (literal ++ after) after = ⟨u, literal, after⟩ := by
  have hbefore : (u ++ (literal ++ after)).take
      ((u ++ (literal ++ after)).length - (literal ++ after).length) = u := by
    rw [List.length_append, Nat.add_sub_cancel, List.take_left]
  have hliteral : (literal ++ after).take ((literal ++ after).length - after.length) = literal := by
    rw [List.length_append, Nat.add_sub_cancel, List.take_left]
  rw [Regions.around, hbefore, hliteral]

theorem skipInline_rawWith (n : Nat) (cs after : List Char) :
    Label.skipInline (rawWith n cs ++ after) = rawWith n cs ++ after := by
  rw [rawWith_append]
  exact Label.skipInline_cons (by decide) _

/-- The opening of a raw literal, with the place where it stands. -/
def promptOpening (rest : List Char) : Option (List Char × List Char × List Char) :=
  (Label.rawOpening rest).map fun (hashes, body) => (rest, hashes, body)

theorem promptOpening_rawWith (n : Nat) (cs after : List Char) :
    promptOpening (rawWith n cs ++ after) =
      some (rawWith n cs ++ after, hashes n, cs ++ (closing n ++ after)) := by
  rw [promptOpening, rawWith_append, Label.rawOpening_hashes]
  rfl

/-- The prompt and its regions, where the search for its opening ends at a literal that closes
first where it was made to close. -/
theorem findPrompt_of_find {front after : List Char} {n : Nat} {prompt : String}
    (hfence : Text.contains (closing n) prompt.toList = false)
    (hfind : Label.find SpecPart.prompt.labels promptOpening
      (front ++ (rawWith n prompt.toList ++ after)) =
        promptOpening (rawWith n prompt.toList ++ after)) :
    findPrompt (front ++ (rawWith n prompt.toList ++ after)) =
      (.ok prompt, ⟨front, rawWith n prompt.toList, after⟩) := by
  have hcut : Text.cut ('"' :: hashes n) (prompt.toList ++ (closing n ++ after)) =
      some (prompt.toList, after) :=
    Literal.cut_closing hfence after
  rw [promptOpening_rawWith] at hfind
  unfold promptOpening at hfind
  unfold findPrompt
  simp only [hfind, hcut, String.ofList_toList, around_append]

/-! ## Documents -/

theorem decoded_written {α : Type} {decoder : Decoder α} {n : Json.Node} {t : List Char} {a : α}
    (ht : Written (.node n) t) (ha : decoder Json.depthLimit n = .ok a) :
    decoded decoder t = .ok a := by
  simp [decoded, Decoder.run_written ht ha]

/-- A document read from what follows its label. -/
def scanned {α : Type} (opening closing : Char) (decoder : Decoder α) (cs : List Char) :
    Reading α :=
  match Balanced.span opening closing cs with
  | .error cause => .error (.unbalanced cause)
  | .ok span => decoded decoder span.literal

theorem structured_eq {α : Type} (part : SpecPart) (opening closing : Char) (decoder : Decoder α)
    (regions : Regions) : structured part opening closing decoder regions =
      match afterPart part regions with
      | none => .error .labelNotFound
      | some rest => scanned opening closing decoder rest := rfl

end Agentry.Artifact
