import Agentry.Text.Quoted
import Mathlib.Data.List.Forall2
/-!
# What a quoted text shows

Each character of a text has its own way of being shown between the quotes.
-/
namespace Agentry.Text

/-- How a character is shown. -/
inductive Shows : Char → List Char → Prop
  | quote : Shows '"' ['\\', '"']
  | backslash : Shows '\\' ['\\', '\\']
  | newline : Shows '\n' ['\\', 'n']
  | carriageReturn : Shows '\r' ['\\', 'r']
  | tab : Shows '\t' ['\\', 't']
  | nul : Shows '\x00' ['\\', '0']
  | number {c : Char} (hletter : c ∉ ['"', '\\', '\n', '\r', '\t', '\x00'])
    (hglyph : isGlyphless c = true) :
    Shows c ('\\' :: 'u' :: '\x7b' :: Nat.toDigits 16 c.toNat ++ ['\x7d'])
  | plain {c : Char} (hletter : c ∉ ['"', '\\', '\n', '\r', '\t', '\x00'])
    (hglyph : isGlyphless c = false) : Shows c [c]

/-- The characters of a text as they are shown, between two quotes. -/
def Quotes (text shown : String) : Prop :=
  ∃ pieces, List.Forall₂ Shows text.toList pieces ∧
    shown.toList = '"' :: pieces.flatten ++ ['"']

theorem shows_quotedChar (c : Char) : Shows c (quotedChar c) := by
  by_cases hletter : c ∈ ['"', '\\', '\n', '\r', '\t', '\x00']
  · simp only [List.mem_cons, List.not_mem_nil, or_false] at hletter
    rcases hletter with rfl | rfl | rfl | rfl | rfl | rfl
    · exact .quote
    · exact .backslash
    · exact .newline
    · exact .carriageReturn
    · exact .tab
    · exact .nul
  · have hnul : c.toNat ≠ 0 := by
      intro hzero
      obtain rfl : c = '\x00' := Char.toNat_inj.mp hzero
      exact hletter (by simp)
    have hothers := hletter
    simp only [List.mem_cons, List.not_mem_nil, or_false, not_or] at hothers
    obtain ⟨hquote, hbackslash, hnewline, hreturn, htab, -⟩ := hothers
    simp only [quotedChar, hquote, hbackslash, hnewline, hreturn, htab, hnul, if_false]
    split
    · rename_i hglyph
      exact .number hletter hglyph
    · rename_i hglyph
      exact .plain hletter (by simpa using hglyph)

theorem quotes_quoted (text : String) : Quotes text (quoted text) := by
  refine ⟨text.toList.map quotedChar, ?_, ?_⟩
  · rw [List.forall₂_map_right_iff]
    exact List.forall₂_same.mpr fun c _ => shows_quotedChar c
  · rw [quoted, String.toList_ofList, List.flatMap_def]

end Agentry.Text
