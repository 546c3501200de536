import Agentry.Proofs.Artifact.Scan
import Agentry.Proofs.Json.Printer
/-!
# Scans at offsets

A scan starts at an offset in octets and answers with two offsets. Where the first lies between two
characters it cuts the text there, and the scan is that of the rest. So a document is isolated
wherever it stands: behind any text and on the line of any label, whatever follows it.
-/
namespace Agentry.Balanced

open Json (Value Written)

@[simp] theorem utf8Size_nil : utf8Size [] = 0 := rfl

@[simp] theorem utf8Size_cons (c : Char) (cs : List Char) :
    utf8Size (c :: cs) = c.utf8Size + utf8Size cs := rfl

@[simp] theorem utf8Size_append (a b : List Char) :
    utf8Size (a ++ b) = utf8Size a + utf8Size b := by
  induction a with
  | nil => simp [utf8Size]
  | cons c a ih => rw [List.cons_append, utf8Size_cons, utf8Size_cons, ih, Nat.add_assoc]

theorem utf8Size_toList (s : String) : utf8Size s.toList = s.utf8ByteSize := by
  have hlist : ∀ cs : List Char, utf8Size cs = (String.ofList cs).utf8ByteSize := by
    intro cs
    induction cs with
    | nil => rfl
    | cons c cs ih =>
      have hsplit : String.ofList (c :: cs) = String.singleton c ++ String.ofList cs := by
        rw [← String.toList_inj]
        simp
      rw [hsplit, String.utf8ByteSize_append, ← ih]
      simp
  rw [hlist, String.ofList_toList]

theorem splitAtOctet_append (a b : List Char) : splitAtOctet (utf8Size a) (a ++ b) = (a, b) := by
  induction a with
  | nil => cases b <;> rfl
  | cons c a ih =>
    have hpos : ¬ c.utf8Size + utf8Size a = 0 := by
      have := c.utf8Size_pos
      omega
    rw [List.cons_append, splitAtOctet, utf8Size_cons, if_neg hpos, Nat.add_sub_cancel_left, ih]

variable {opening closing : Char}

/-- A scan from between two characters is a scan of what follows. -/
theorem octetSpan_append {before rest : String} {s : Span}
    (h : span opening closing rest.toList = .ok s) :
    octetSpan (before ++ rest) before.utf8ByteSize opening closing =
      .ok (before.utf8ByteSize + utf8Size s.before,
        before.utf8ByteSize + utf8Size s.before + utf8Size s.literal) := by
  simp only [octetSpan, String.toList_append, ← utf8Size_toList, splitAtOctet_append, h]

theorem octetSpan_written (h : Delimiters opening closing) {n : Json.Node} {cs : List Char}
    {before mid document after : String} (hdocument : Written (.node n) document.toList)
    (hopening : document.toList = opening :: cs) (hline : '\n' ∉ mid.toList)
    (hmid : opening ∉ mid.toList) :
    octetSpan (before ++ mid ++ document ++ after) before.utf8ByteSize opening closing =
      .ok ((before ++ mid).utf8ByteSize, (before ++ mid ++ document).utf8ByteSize) := by
  have hspan : span opening closing (mid ++ document ++ after).toList =
      .ok ⟨mid.toList, document.toList, after.toList⟩ := by
    rw [hopening] at hdocument ⊢
    simp only [String.toList_append, hopening, List.append_assoc]
    exact span_written h hdocument hline hmid after.toList
  have hscan : octetSpan (before ++ (mid ++ document ++ after)) _ opening closing = _ :=
    octetSpan_append hspan
  simp only [utf8Size_toList] at hscan
  simpa only [String.append_assoc, String.utf8ByteSize_append, Nat.add_assoc] using hscan

theorem opening_of_object {members : List (Option String × Json.Node)} {cs : List Char}
    (h : Written (.node (.object members)) cs) : ∃ more, cs = '\x7b' :: more := by
  cases h with
  | emptyObject _ => exact ⟨_, rfl⟩
  | object _ => exact ⟨_, rfl⟩

theorem opening_of_array {items : List Json.Node} {cs : List Char}
    (h : Written (.node (.array items)) cs) : ∃ more, cs = '[' :: more := by
  cases h with
  | emptyArray _ => exact ⟨_, rfl⟩
  | array _ => exact ⟨_, rfl⟩

/-- A scan for braces isolates an object, and a scan for brackets an array. -/
theorem octetSpan_document (before after : String) {mid document : String}
    (hline : '\n' ∉ mid.toList) :
    (∀ members, Written (.node (.object members)) document.toList → '\x7b' ∉ mid.toList →
      octetSpan (before ++ mid ++ document ++ after) before.utf8ByteSize '\x7b' '\x7d' =
        .ok ((before ++ mid).utf8ByteSize, (before ++ mid ++ document).utf8ByteSize)) ∧
    ∀ items, Written (.node (.array items)) document.toList → '[' ∉ mid.toList →
      octetSpan (before ++ mid ++ document ++ after) before.utf8ByteSize '[' ']' =
        .ok ((before ++ mid).utf8ByteSize, (before ++ mid ++ document).utf8ByteSize) := by
  constructor
  · intro members hdocument hmid
    obtain ⟨cs, hcs⟩ := opening_of_object hdocument
    exact octetSpan_written .braces hdocument hcs hline hmid
  · intro items hdocument hmid
    obtain ⟨cs, hcs⟩ := opening_of_array hdocument
    exact octetSpan_written .brackets hdocument hcs hline hmid

/-- An object that holds its own delimiters in a name and in an item. -/
def nestedObject : Value :=
  .object [("\"\x7dé", .array [.string "\x7b]", .object []])]

theorem octetSpan_document_nestedObject :
    octetSpan ("é\x7b\ninput_schema" ++ ": r\"" ++ nestedObject.prettyText ++ "\x7d\"\x7b") 16
        '\x7b' '\x7d' = .ok (20, 57) ∧
      octetSpan ("]\ntools" ++ ": \x7b" ++ (Value.array [nestedObject]).prettyText ++ "\"]") 7
        '[' ']' = .ok (10, 63) := by
  have hdocument : ∀ v : Value, v.Integral →
      Written (.node (Json.Node.ofValue v)) v.prettyText.toList := by
    intro v hv
    rw [Value.prettyText, String.toList_ofList]
    exact Value.written_prettyAt 0 v hv
  have hintegral : nestedObject.Integral := by
    simp [nestedObject, Value.Integral, Value.IntegralMembers, Value.IntegralItems]
  have hobject := (octetSpan_document "é\x7b\ninput_schema" "\x7d\"\x7b"
    (show '\n' ∉ ": r\"".toList by decide)).1 _ (hdocument nestedObject hintegral) (by decide)
  have harray := (octetSpan_document "]\ntools" "\"]" (show '\n' ∉ ": \x7b".toList by decide)).2 _
    (hdocument (.array [nestedObject]) ⟨hintegral, trivial⟩) (by decide)
  refine ⟨hobject.trans (congrArg Except.ok ?_), harray.trans (congrArg Except.ok ?_)⟩
  · decide +kernel
  · decide +kernel

end Agentry.Balanced
