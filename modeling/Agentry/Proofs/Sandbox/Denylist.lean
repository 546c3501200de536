import Agentry.Proofs.Files.FileName
import Agentry.Proofs.Text
import Agentry.Proofs.Text.Lowercase
import Agentry.Sandbox.Denylist
import Mathlib.Data.List.Find
/-!
# What no spelling hides from the denylist

A command is refused for the name at the end of its path. Neither the directories before that name
nor what leads nowhere behind it count, nor does the case of its letters, and a name that is refused
is refused inside a longer name. A command without such a name is looked through as a whole.
-/
namespace Agentry

theorem Path.isStep_map_asciiLower {cs : List Char} :
    IsStep (cs.map Text.asciiLower) ↔ IsStep cs := by
  have hnil : cs.map Text.asciiLower = [] ↔ cs = [] := List.map_eq_nil_iff
  have hhere : cs.map Text.asciiLower = ['.'] ↔ cs = ['.'] :=
    Text.map_asciiLower_eq_iff (by simp)
  have hparent : cs.map Text.asciiLower = ['.', '.'] ↔ cs = ['.', '.'] :=
    Text.map_asciiLower_eq_iff (by simp)
  have hslash : '/' ∈ cs.map Text.asciiLower ↔ '/' ∈ cs := Text.mem_map_asciiLower (by decide)
  constructor
  · intro h
    exact ⟨mt hnil.mpr h.ne_nil, mt hhere.mpr h.ne_here, mt hparent.mpr h.ne_parent,
      mt hslash.mpr h.noSlash⟩
  · intro h
    exact ⟨mt hnil.mp h.ne_nil, mt hhere.mp h.ne_here, mt hparent.mp h.ne_parent,
      mt hslash.mp h.noSlash⟩

namespace Denylist

/-- What of a command is looked through. -/
def inspected (command : List Char) : List Char :=
  (Path.fileName command).getD command

def firstIn (lowered : List Char) : Option String :=
  entries.find? fun entry => Text.contains entry.toList lowered

def Denies (command : String) : Prop :=
  ∃ entry ∈ entries, matching command = some entry

variable {command other name : String}

theorem matching_eq (command : String) :
    matching command = firstIn (Text.lowercase (inspected command.toList)) :=
  rfl

theorem exists_firstIn_iff {lowered : List Char} :
    (∃ entry ∈ entries, firstIn lowered = some entry) ↔
      ∃ entry ∈ entries, entry.toList <:+: lowered := by
  constructor
  · intro h
    obtain ⟨entry, hmem, hfind⟩ := h
    have hcontains : Text.contains entry.toList lowered = true := by
      simpa using List.find?_some hfind
    exact ⟨entry, hmem, Text.contains_iff_infix.mp hcontains⟩
  · intro h
    obtain ⟨entry, hmem, hinfix⟩ := h
    have hsome : (firstIn lowered).isSome = true :=
      List.find?_isSome.mpr ⟨entry, hmem, by simpa using Text.contains_iff_infix.mpr hinfix⟩
    obtain ⟨first, hfirst⟩ := Option.isSome_iff_exists.mp hsome
    exact ⟨first, List.mem_of_find?_eq_some hfirst, hfirst⟩

theorem denies_iff : Denies command ↔
    ∃ entry ∈ entries, entry.toList <:+: Text.lowercase (inspected command.toList) :=
  exists_firstIn_iff

theorem ascii_of_mem_entries {entry : String} (h : entry ∈ entries) :
    ∀ c ∈ entry.toList, c.toNat < 128 := by
  have hall : entries.all (fun entry => entry.toList.all fun c => c.toNat < 128) = true := by decide
  intro c hc
  simpa using List.all_eq_true.mp (List.all_eq_true.mp hall entry h) c hc

theorem not_mem_entry {entry : String} (h : entry ∈ entries) {c : Char} (hc : 128 ≤ c.toNat) :
    c ∉ entry.toList := by
  intro hmem
  have hascii := ascii_of_mem_entries h c hmem
  omega

theorem matching_congr (h : Text.lowercase (inspected command.toList) =
    Text.lowercase (inspected other.toList)) : matching command = matching other := by
  rw [matching_eq, h, matching_eq]

theorem inspected_of_fileName {step : List Char} (h : Path.fileName command.toList = some step) :
    inspected command.toList = step := by
  rw [inspected, h, Option.getD_some]

theorem denies_of_entry {entry : String} (hmem : entry ∈ entries)
    (h : entry.toList <:+: (inspected command.toList).map Text.asciiLower) : Denies command :=
  denies_iff.mpr ⟨entry, hmem, Text.infix_lowercase (ascii_of_mem_entries hmem) h⟩

theorem inspected_step (h : Path.IsStep name.toList) : inspected name.toList = name.toList :=
  inspected_of_fileName h.fileName_eq

theorem matching_around {front rest : String} (h : Path.IsStep name.toList)
    (hfront : Path.Opens front.toList) (hrest : Path.Stays rest.toList) :
    matching (front ++ name ++ rest) = matching name := by
  have hname : Path.fileName (front ++ name ++ rest).toList = some name.toList := by
    rw [String.toList_append, String.toList_append, List.append_assoc]
    exact Path.fileName_around hfront h hrest
  refine matching_congr ?_
  rw [inspected_of_fileName hname, inspected_step h]

theorem matching_of_case (h : Path.IsStep name.toList)
    (hcase : Text.asciiLowercase other = Text.asciiLowercase name) :
    matching other = matching name := by
  have hmap : other.toList.map Text.asciiLower = name.toList.map Text.asciiLower :=
    String.ofList_injective hcase
  have hother : Path.IsStep other.toList := by
    rwa [← Path.isStep_map_asciiLower, hmap, Path.isStep_map_asciiLower]
  refine matching_congr ?_
  rw [inspected_step hother, inspected_step h, ← Text.lowercase_map_asciiLower, hmap,
    Text.lowercase_map_asciiLower]

theorem denies_inside {before after : String} (h : Path.IsStep name.toList)
    (hbefore : '/' ∉ before.toList) (hafter : '/' ∉ after.toList) (hdenies : Denies name) :
    Denies (before ++ name ++ after) := by
  have hlist : (before ++ name ++ after).toList =
      before.toList ++ (name.toList ++ after.toList) := by
    rw [String.toList_append, String.toList_append, List.append_assoc]
  have hname : Path.fileName (before ++ name ++ after).toList =
      some (before.toList ++ (name.toList ++ after.toList)) := by
    rw [hlist]
    exact (h.around hbefore hafter).fileName_eq
  obtain ⟨entry, hmem, hinfix⟩ := denies_iff.mp hdenies
  refine denies_iff.mpr ⟨entry, hmem, ?_⟩
  rw [inspected_step h] at hinfix
  rw [inspected_of_fileName hname, Text.lowercase_append, Text.lowercase_append]
  exact hinfix.trans ⟨_, _, List.append_assoc _ _ _⟩

theorem firstIn_of_sigmaAlike {lower lowered : List Char} (h : Text.SigmaAlike lower lowered) :
    firstIn lower = firstIn lowered := by
  refine List.find?_congr fun entry hmem => ?_
  rw [Bool.eq_iff_iff, Text.contains_iff_infix, Text.contains_iff_infix]
  exact h.infix_iff (not_mem_entry hmem (by decide)) (not_mem_entry hmem (by decide))

/-- No spelling of a command hides its name. The directories before the name, what leads nowhere
behind it and the case of its letters do not count, a name that is refused is refused inside a
longer one, and an entry is found in the name in any case. A command that is no spelling of any name
is refused for an entry anywhere in it. The small sigma at the end of a word hides nothing. -/
theorem matching_any_spelling :
    (∀ name : String, Path.IsStep name.toList →
      (∀ front rest : String, Path.Opens front.toList → Path.Stays rest.toList →
        matching (front ++ name ++ rest) = matching name) ∧
      (∀ other, Text.asciiLowercase other = Text.asciiLowercase name →
        matching other = matching name) ∧
      (∀ before after : String, '/' ∉ before.toList → '/' ∉ after.toList → Denies name →
        Denies (before ++ name ++ after)) ∧
      (∀ entry ∈ entries, entry.toList <:+: (Text.asciiLowercase name).toList → Denies name)) ∧
    (∀ command : String, Path.fileName command.toList = none →
      ∀ entry ∈ entries, entry.toList <:+: (Text.asciiLowercase command).toList →
        Denies command) ∧
    (∀ command : String, Path.fileName command.toList = none ↔
      ∀ name front rest : String, Path.IsStep name.toList → Path.Opens front.toList →
        Path.Stays rest.toList → command ≠ front ++ name ++ rest) ∧
    (∀ (command : String) (lowered : List Char),
      Text.SigmaAlike (Text.lowercase (inspected command.toList)) lowered →
        firstIn lowered = matching command) := by
  refine ⟨fun name hname => ⟨fun front rest => matching_around hname,
    fun other => matching_of_case hname, fun before after => denies_inside hname, ?_⟩, ?_,
    fun command => Path.fileName_eq_none_iff, fun command lowered hsigma => ?_⟩
  · intro entry hmem hinfix
    rw [Text.asciiLowercase, String.toList_ofList] at hinfix
    exact denies_of_entry hmem (by rwa [inspected_step hname])
  · intro command hnone entry hmem hinfix
    rw [Text.asciiLowercase, String.toList_ofList] at hinfix
    exact denies_of_entry hmem (by rwa [inspected, hnone])
  · exact (firstIn_of_sigmaAlike hsigma).symm

/-- One name in another case, behind directories, before what leads nowhere and inside a longer
name, a path to a parent that goes through it, and a name with a sigma at its end. -/
theorem matching_any_spelling_rm :
    matching ("/opt/./" ++ "Rm" ++ "//./") = some "rm" ∧
      matching "rM" = matching "Rm" ∧
      Denies ("Ağ" ++ "Rm" ++ "Σ") ∧
      Path.fileName "bin/RM/..".toList = none ∧ Denies "bin/RM/.." ∧
      firstIn "suας".toList = matching "bin/SUΑΣ" := by
  obtain ⟨hnames, hwhole, -, hsigma⟩ := matching_any_spelling
  have hstep : Path.IsStep "Rm".toList := ⟨by decide, by decide, by decide, by decide⟩
  obtain ⟨haround, hcase, hinside, hentry⟩ := hnames "Rm" hstep
  have hmem : "rm" ∈ entries := by decide
  have hmatching : matching "Rm" = some "rm" := by decide +kernel
  have hopens : Path.Opens "/opt/./".toList := Or.inr (by decide)
  have hstays : Path.Stays "//./".toList := .slash (.here (.slash .done))
  have hdenies : Denies "Rm" := hentry "rm" hmem (by decide)
  have hnone : Path.fileName "bin/RM/..".toList = none := by decide
  have halike : Text.SigmaAlike (Text.lowercase (inspected "bin/SUΑΣ".toList)) "suας".toList := by
    decide +kernel
  refine ⟨(haround "/opt/./" "//./" hopens hstays).trans hmatching, hcase "rM" (by decide),
    hinside "Ağ" "Σ" (by decide) (by decide) hdenies, hnone,
    hwhole "bin/RM/.." hnone "rm" hmem ⟨"bin/".toList, "/..".toList, by decide⟩,
    hsigma "bin/SUΑΣ" "suας".toList halike⟩

end Denylist

end Agentry
