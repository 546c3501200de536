import Agentry.Proofs.Artifact.Octets
import Agentry.Proofs.Files.Directory
import Agentry.Sandbox.Directory
/-!
# Paths that are texts

What is done with the octets of a text is what is done with the text. A tree spells different names
differently, and a location whose names are texts has the path that is put together from them.
-/
namespace Agentry

namespace Sliced

theorem octet_mem_utf8EncodeChar_iff {c d : Char} (hd : IsAscii d) :
    octet d ∈ String.utf8EncodeChar c ↔ c = d := by
  constructor
  · intro hmem
    by_cases hc : IsAscii c
    · rw [utf8EncodeChar_ascii hc, List.mem_singleton] at hmem
      exact ((octet_inj hd hc).mp hmem).symm
    · exact absurd rfl (ne_octet_of_high (utf8EncodeChar_high hc _ hmem) hd)
  · rintro rfl
    rw [utf8EncodeChar_ascii hd]
    exact List.mem_singleton_self _

theorem octet_mem_octets_iff {cs : List Char} {d : Char} (hd : IsAscii d) :
    octet d ∈ octets cs ↔ d ∈ cs := by
  simp [octets, octet_mem_utf8EncodeChar_iff hd]

theorem octets_eq_nil_iff {cs : List Char} : octets cs = [] ↔ cs = [] := by
  cases cs with
  | nil => simp [octets]
  | cons c cs => simp [octets_cons, String.utf8EncodeChar_ne_nil]

theorem head?_octets_iff {cs : List Char} {d : Char} (hd : IsAscii d) :
    (octets cs).head? = some (octet d) ↔ cs.head? = some d := by
  cases cs with
  | nil => simp [octets]
  | cons c cs =>
    obtain ⟨b, rest, hc⟩ := List.exists_cons_of_ne_nil (@String.utf8EncodeChar_ne_nil c)
    rw [octets_cons, hc, List.cons_append, List.head?_cons, List.head?_cons, Option.some.injEq,
      Option.some.injEq]
    constructor
    · rintro rfl
      exact (octet_mem_utf8EncodeChar_iff hd).mp (hc ▸ List.mem_cons_self)
    · rintro rfl
      rw [utf8EncodeChar_ascii hd] at hc
      exact (List.cons.inj hc).1.symm

theorem getLast?_octets_iff {cs : List Char} {d : Char} (hd : IsAscii d) :
    (octets cs).getLast? = some (octet d) ↔ cs.getLast? = some d := by
  rcases List.eq_nil_or_concat cs with rfl | ⟨front, c, rfl⟩
  · simp [octets]
  · obtain ⟨first, b, hc⟩ :=
      (List.eq_nil_or_concat (String.utf8EncodeChar c)).resolve_left String.utf8EncodeChar_ne_nil
    have hlast : octets [c] = first.concat b := (List.append_nil _).trans hc
    rw [List.concat_eq_append, octets_append, hlast, List.concat_eq_append, ← List.append_assoc,
      List.getLast?_concat, List.getLast?_concat, Option.some.injEq, Option.some.injEq]
    constructor
    · rintro rfl
      exact (octet_mem_utf8EncodeChar_iff hd).mp (hc ▸ by simp)
    · rintro rfl
      rw [utf8EncodeChar_ascii hd] at hc
      have hsame := congrArg List.getLast? hc
      simpa using hsame.symm

end Sliced

open Sliced (IsAscii octet)

namespace OsPath

variable {path : OsPath} {text : String}

theorem octets_ofText (text : String) : (ofText text).octets = Sliced.octets text.toList := by
  have h : (String.ofList text.toList).toUTF8.data.toList = Sliced.octets text.toList := by
    rw [String.toUTF8, String.toByteArray_ofList, List.utf8Encode, List.data_toByteArray]
    rfl
  rwa [String.ofList_toList] at h

theorem ofText_append (a b : String) :
    ofText (a ++ b) = ⟨(ofText a).octets ++ (ofText b).octets⟩ := by
  have h := octets_ofText (a ++ b)
  rw [String.toList_append, Sliced.octets_append, ← octets_ofText, ← octets_ofText] at h
  exact congrArg mk h

theorem text?_eq_some_iff : path.text? = some text ↔ path = ofText text := by
  obtain ⟨octets⟩ := path
  rw [text?, FileTree.fromUTF8?_eq_some_iff, ofText, mk.injEq]
  constructor
  · intro h
    rw [← h]
  · rintro rfl
    rfl

@[simp] theorem text?_ofText (text : String) : (ofText text).text? = some text :=
  text?_eq_some_iff.mpr rfl

/-- A path that spells a text. -/
def IsText (path : OsPath) : Prop := ∃ text, path = ofText text

theorem isText_iff : path.IsText ↔ path.text?.isSome = true := by
  rw [Option.isSome_iff_exists]
  exact exists_congr fun text => text?_eq_some_iff.symm

instance (path : OsPath) : Decidable path.IsText := decidable_of_iff _ isText_iff.symm

theorem text?_eq_none (h : ¬path.IsText) : path.text? = none := by
  cases htext : path.text? with
  | none => rfl
  | some text => exact absurd ⟨text, text?_eq_some_iff.mp htext⟩ h

theorem ascii_slash : IsAscii '/' := by decide

theorem isAbsolute_ofText (text : String) : (ofText text).isAbsolute = Path.isAbsolute text := by
  rw [isAbsolute, octets_ofText, Path.isAbsolute]
  exact decide_eq_decide.mpr (Sliced.head?_octets_iff ascii_slash)

theorem join_ofText (base path : String) :
    (ofText base).join (ofText path) = ofText (Path.join base path) := by
  have hempty : (ofText base).octets.isEmpty = base.isEmpty := by
    rw [Bool.eq_iff_iff, List.isEmpty_iff, octets_ofText, Sliced.octets_eq_nil_iff,
      String.toList_eq_nil_iff, String.isEmpty_iff]
  have hlast : decide ((ofText base).octets.getLast? = some slash) =
      decide (base.toList.getLast? = some '/') := by
    rw [octets_ofText]
    exact decide_eq_decide.mpr (Sliced.getLast?_octets_iff ascii_slash)
  rw [join, Path.join, isAbsolute_ofText, hempty, hlast]
  split
  · rfl
  split
  · exact (ofText_append base path).symm
  · rw [ofText_append, ofText_append, List.append_assoc]
    rfl

/-! ## Names in trees -/

/-- A name that a tree keeps is read back, as no name has a NUL in it. -/
theorem octetsOfName_spelledName {name : List UInt8} (h : 0 ∉ name) :
    octetsOfName (spelledName name) = name := by
  cases htext : text? ⟨name⟩ with
  | some text =>
    obtain rfl : name = (ofText text).octets := congrArg octets (text?_eq_some_iff.mp htext)
    rw [octets_ofText] at h
    rw [spelledName, htext, Option.getD_some, octetsOfName]
    split
    · rename_i cs hcs
      rw [hcs] at h
      exact absurd ((Sliced.octet_mem_octets_iff (d := '\x00') (by decide)).mpr (by simp)) h
    · rfl
  | none =>
    have hoctet : ∀ octet ∈ name, UInt8.ofNat (Char.ofNat octet.toNat).toNat = octet := by
      intro octet _
      have hlt := octet.toNat_lt
      have hvalid : octet.toNat.isValidChar := Or.inl (by omega)
      rw [Char.ofNat, dif_pos hvalid]
      exact UInt8.ofNat_toNat
    rw [spelledName, htext, Option.getD_none, octetsOfName, String.toList_ofList]
    simp only [characters, List.map_map]
    exact (List.map_congr_left hoctet).trans (List.map_id' name)

theorem spelledName_inj {a b : List UInt8} (ha : 0 ∉ a) (hb : 0 ∉ b) :
    spelledName a = spelledName b ↔ a = b := by
  refine ⟨fun h => ?_, congrArg spelledName⟩
  rw [← octetsOfName_spelledName ha, h, octetsOfName_spelledName hb]

theorem octetsOfName_of_text {name : String} (h : '\x00' ∉ name.toList) :
    octetsOfName name = (ofText name).octets := by
  rw [octetsOfName]
  split
  · rename_i cs hcs
    rw [hcs] at h
    exact absurd List.mem_cons_self h
  · rfl

theorem octets_names {loc : Location} (h : ∀ name ∈ loc, '\x00' ∉ name.toList) :
    loc.flatMap (fun name => slash :: octetsOfName name) =
      (ofText (String.join (loc.map ("/" ++ ·)))).octets := by
  induction loc with
  | nil => rfl
  | cons name rest ih =>
    obtain ⟨hname, hrest⟩ := List.forall_mem_cons.mp h
    rw [List.flatMap_cons, List.map_cons, String.join_cons, ofText_append, ofText_append,
      octetsOfName_of_text hname, ih hrest]
    rfl

theorem ofLocation_of_texts {loc : Location} (h : ∀ name ∈ loc, '\x00' ∉ name.toList) :
    ofLocation loc = ofText (FileTree.pathOf loc) := by
  rw [ofLocation, FileTree.pathOf, octets_names h]
  split <;> rfl

end OsPath

theorem FileTree.directoryAt_ofText (tree : FileTree) (home : Location) (path : String) :
    tree.directoryAt home (.ofText path) = tree.directory home path := by
  rw [directoryAt, locatePath, OsPath.text?_ofText]
  rfl

end Agentry
