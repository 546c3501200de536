import Agentry.Artifact.Parsed
import Agentry.Proofs.Artifact.Lines
import Agentry.Proofs.Sha256
import Agentry.Proofs.Text
/-!
# The header of an artifact

The digest is written on the third line of the header and is the first one that is found there. No
line of the header begins like the label of a part.
-/
namespace Agentry.Artifact

open Label (Closed lineHeads lineHeads_append lineHeads_inLine lineHeads_false)

/-- What stands before the digest: two lines, and the marker that begins the third. -/
def headerStart : List Char :=
  "// @generated by agentc ".toList ++ version.toList ++
  ("\n// Labelled literals below are read back by `agentc show`; " ++
    "keep each label on its own line.\n").toList ++ digestMarker.toList

def headerMiddle : List Char :=
  "\n\nuse agentc_core::prelude::*;\n\npub const SLUG: &str = ".toList

def headerEnd : List Char :=
  ";\n\npub fn spec() -> AgentSpec \x7b\n".toList ++
  "    AgentSpec::from_artifact(ArtifactLiterals \x7b\n".toList

theorem header_eq (digest : String) (slug : List Char) :
    header digest slug =
      headerStart ++ (digest.toList ++ (headerMiddle ++ (slug ++ headerEnd))) := by
  unfold header headerStart headerMiddle headerEnd
  simp only [List.append_assoc]

theorem closed_header (digest : String) (slug : List Char) : Closed (header digest slug) := by
  have hend : headerEnd.getLast? = some '\n' := by decide
  obtain ⟨front, hfront⟩ := List.getLast?_eq_some_iff.mp hend
  rw [header_eq, hfront]
  exact Or.inr ⟨headerStart ++ (digest.toList ++ (headerMiddle ++ (slug ++ front))), by simp⟩

/-- The characters that begin the lines of a header. -/
theorem lineHeads_header {digest : String} {slug : List Char} (hdigest : '\n' ∉ digest.toList)
    (hslug : '\n' ∉ slug) :
    lineHeads true (header digest slug) = ['/', '/', '/', 'u', 'p', 'p', 'A'] := by
  have hstart : lineHeads true headerStart = ['/', '/', '/'] ∧
      headerStart.foldl Label.atStart true = false := by decide
  have hmiddle : lineHeads false headerMiddle = ['u', 'p'] ∧
      headerMiddle.foldl Label.atStart false = false := by decide
  have hend : lineHeads false headerEnd = ['p', 'A'] := by decide
  rw [header_eq, lineHeads_append, hstart.1, hstart.2, lineHeads_inLine hdigest, lineHeads_append,
    hmiddle.1, hmiddle.2, lineHeads_inLine hslug, hend]
  rfl

/-- The lines above the digest carry none. -/
theorem exists_unmarked_lines : ∃ first second : List Char,
    headerStart = first ++ '\n' :: (second ++ '\n' :: digestMarker.toList) ∧
    '\n' ∉ first ∧ '\n' ∉ second ∧ ∀ line ∈ [first, second],
      Label.dropText digestMarker.toList (Text.trimLeft (Text.endedLine line)) = none :=
  ⟨"// @generated by agentc 0.1.0".toList,
    ("// Labelled literals below are read back by `agentc show`; " ++
      "keep each label on its own line.").toList,
    by decide +kernel, by decide, by decide, by decide⟩

/-- The digest of the header is the one that is found. -/
theorem stampedDigest_header {digest : String}
    (hdigest : ∀ c ∈ digest.toList, Text.isBlank c = false) (slug rest : List Char) :
    stampedDigest (header digest slug ++ rest) = some digest.toList := by
  have hnot : ∀ c, Text.isBlank c = true → c ∉ digest.toList := by
    intro c hc hmem
    rw [hdigest c hmem] at hc
    cases hc
  obtain ⟨first, second, hstart, hfirst, hsecond, hother⟩ := exists_unmarked_lines
  obtain ⟨more, hmore⟩ : ∃ more, headerMiddle = '\n' :: more := ⟨_, rfl⟩
  have hmarker : '\n' ∉ digestMarker.toList ∧ '\r' ∉ digestMarker.toList := by decide
  have hline : '\n' ∉ digestMarker.toList ++ digest.toList ∧
      '\r' ∉ digestMarker.toList ++ digest.toList := by
    simp only [List.mem_append, not_or]
    exact ⟨⟨hmarker.1, hnot _ (by decide)⟩, hmarker.2, hnot _ (by decide)⟩
  have htext : header digest slug ++ rest = first ++ '\n' :: (second ++ '\n' ::
      (digestMarker.toList ++ digest.toList ++ '\n' ::
        (more ++ (slug ++ (headerEnd ++ rest))))) := by
    rw [header_eq, hstart, hmore]
    simp only [List.append_assoc, List.cons_append]
  have hfound : Label.dropText digestMarker.toList
      (Text.trimLeft (Text.endedLine (digestMarker.toList ++ digest.toList))) =
        some digest.toList := by
    obtain ⟨slashes, hslash⟩ : ∃ slashes, digestMarker.toList = '/' :: slashes := ⟨_, rfl⟩
    rw [Text.endedLine_of_not_mem hline.2, hslash, List.cons_append,
      Text.trimLeft_of_not_blank (by decide), ← List.cons_append]
    exact Label.dropText_append _ _
  rw [stampedDigest, htext, Text.lines_append hfirst, Text.lines_append hsecond,
    Text.lines_append hline.1]
  simp only [List.findSome?_cons, hother first (by simp), hother second (by simp), hfound,
    Option.map_none, Option.map_some, Text.trimChars_of_not_blank hdigest]

end Agentry.Artifact
