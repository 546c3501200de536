import Agentry.Proofs.Files.Disk
import Agentry.Proofs.Slug
import Agentry.Store.Basic
/-!
# The places of a store

Every slug has a place in the directory of a store. A store tells from the text there who owns the
place, unless a fault gets in its way.
-/
namespace Agentry

theorem Artifact.fileNameOf_inj {slug other : String} :
    fileNameOf slug = fileNameOf other ↔ slug = other := by
  rw [← String.toList_inj, fileNameOf, fileNameOf, String.toList_append, String.toList_append,
    List.append_cancel_right_eq, String.toList_inj]

theorem Artifact.isName_fileNameOf {slug : String} (hslash : '/' ∉ slug.toList)
    (hnul : '\x00' ∉ slug.toList) : Path.IsName (fileNameOf slug) := by
  have hlist : (fileNameOf slug).toList = slug.toList ++ ".agent.rs".toList := by
    simp [fileNameOf, fileSuffix]
  have hlength : 9 ≤ (fileNameOf slug).toList.length := by simp [hlist]
  have hne : ∀ other : String, other.toList.length < 9 → fileNameOf slug ≠ other := by
    rintro other hother rfl
    omega
  refine ⟨hne "" (by decide), hne "." (by decide), hne ".." (by decide), ?_, ?_⟩
  · rw [hlist, List.mem_append]
    exact not_or.mpr ⟨hslash, by decide⟩
  · rw [hlist, List.mem_append]
    exact not_or.mpr ⟨hnul, by decide⟩

theorem Slug.isName_of_letters {slug : String}
    (h : ∀ c ∈ slug.toList, isSlugLetter c = true ∨ c = '-') :
    Path.IsName (Artifact.fileNameOf slug) := by
  have hother : ∀ c : Char, isSlugLetter c = false → c ≠ '-' → c ∉ slug.toList := by
    intro c hletter hhyphen hmem
    rcases h c hmem with hc | hc
    · rw [hc] at hletter
      cases hletter
    · exact hhyphen hc
  exact Artifact.isName_fileNameOf (hother _ (by decide) (by decide))
    (hother _ (by decide) (by decide))

theorem Slug.Valid.isName {slug : String} (h : Slug.Valid slug.toList) :
    Path.IsName (Artifact.fileNameOf slug) :=
  isName_of_letters h.mem

namespace Store

open Artifact (fileNameOf isName_fileNameOf)

/-- What stands in the place of a slug. -/
inductive Slot where
  | free
  | owned (name : String)
  | unreadable (cause : IoError)
  deriving DecidableEq

def Slot.ofText : Except IoError String → Slot
  | .ok text => .owned (Artifact.parse text).spec.name
  | .error .notFound => .free
  | .error cause => .unreadable cause

/-- The text in the place of a slug. -/
def slotText (directory : String) (tree : FileTree) (root : Location) (slug : String) :
    Except IoError String :=
  if FileTree.Fits directory (fileNameOf slug) then tree.entryText root (fileNameOf slug)
  else .error .nameTooLong

def slotAt (directory : String) (tree : FileTree) (root : Location) (slug : String) : Slot :=
  .ofText (slotText directory tree root slug)

/-- What the path of a slug's file tells about its place. -/
def slotOn (directory : String) (disk : Disk) (slug : String) : Slot :=
  .ofText (disk.tree.readText disk.home (Path.join directory (fileNameOf slug)))

/-- A disk on which a store finds its directory, where nothing is a link and no fault reports that
a file is missing. -/
structure Ready (directory : String) (root : Location) (disk : Disk) : Prop where
  leads : disk.tree.directory disk.home directory = .ok root
  linkless : disk.tree.Linkless root
  honest : disk.Honest

variable {directory slug : String} {root : Location} {tree : FileTree} {disk after : Disk}
  {store : Store} {bench : Workbench}

theorem Ready.kept (h : Ready directory root disk) (hkept : disk.Kept after) :
    Ready directory root after where
  leads := by rw [hkept.tree, hkept.home, h.leads]
  linkless := by rw [hkept.tree]; exact h.linkless
  honest := hkept.honest h.honest

theorem Ready.mended (h : Ready directory root disk) : Ready directory root disk.mended where
  leads := h.leads
  linkless := h.linkless
  honest := List.not_mem_nil

theorem Ready.readText (h : Ready directory root disk) (hname : Path.IsName (fileNameOf slug))
    {answer : Except IoError String}
    (hread : disk.readText (Path.join directory (fileNameOf slug)) = (answer, after)) :
    disk.Tells (slotText directory disk.tree root slug) answer ∧ disk.Kept after := by
  have htruth : disk.tree.readText disk.home (Path.join directory (fileNameOf slug)) =
      slotText directory disk.tree root slug :=
    FileTree.readText_join h.leads hname h.linkless
  have hlook := Disk.look_tells disk (slotText directory disk.tree root slug)
  rw [Disk.readText, htruth] at hread
  rwa [hread] at hlook

theorem Ready.slotOn_eq (h : Ready directory root disk) (hname : Path.IsName (fileNameOf slug)) :
    slotOn directory disk slug = slotAt directory disk.tree root slug :=
  congrArg Slot.ofText (FileTree.readText_join h.leads hname h.linkless)

theorem slotOn_kept (directory : String) (hkept : disk.Kept after) :
    slotOn directory after = slotOn directory disk := by
  funext slug
  rw [slotOn, slotOn, hkept.tree, hkept.home]

theorem read_of_slotText (store : Store) (h : Ready store.directory root disk)
    (hfaults : disk.faults = []) (hname : Path.IsName (fileNameOf slug)) {text : String}
    (htext : slotText store.directory disk.tree root slug = .ok text) (events : List Event) :
    store.read slug ⟨disk, events⟩ =
      (.ok (Artifact.parse text), ⟨disk, events ++ (Artifact.parse text).events⟩) := by
  obtain ⟨answer, after, hread⟩ : ∃ answer after,
      disk.readText (store.artifactPath slug) = (answer, after) := ⟨_, _, rfl⟩
  obtain ⟨rfl | ⟨cause, hfault, -⟩, hkept⟩ := h.readText hname hread
  · obtain rfl := hkept.eq hfaults
    simp only [read, readPath, Workbench.doing, hread, htext]
    rfl
  · rw [hfaults] at hfault
    cases hfault

/-! ## What a place holds -/

theorem slotText_eq_ok_iff {text : String} : slotText directory tree root slug = .ok text ↔
    FileTree.Fits directory (fileNameOf slug) ∧
      tree.entryText root (fileNameOf slug) = .ok text := by
  unfold slotText
  split <;> rename_i hfits <;> simp [hfits]

theorem slotText_eq_ok {text : String} (h : slotText directory tree root slug = .ok text) :
    FileTree.Fits directory (fileNameOf slug) ∧ ∃ bytes mode,
      tree.get? (root ++ [fileNameOf slug]) = some (.file bytes mode) := by
  obtain ⟨hfits, htext⟩ := slotText_eq_ok_iff.mp h
  obtain ⟨mode, hnode⟩ := FileTree.entryText_eq_ok_iff.mp htext
  exact ⟨hfits, _, mode, hnode⟩

theorem slotText_eq_notFound (hlinkless : tree.Linkless root)
    (h : slotText directory tree root slug = .error .notFound) :
    FileTree.Fits directory (fileNameOf slug) ∧ tree.get? (root ++ [fileNameOf slug]) = none := by
  unfold slotText at h
  split at h
  · rename_i hfits
    refine ⟨hfits, ?_⟩
    unfold FileTree.entryText at h
    cases hnode : tree.get? (root ++ [fileNameOf slug]) with
    | none => rfl
    | some node =>
      rw [hnode] at h
      cases node with
      | file bytes mode =>
        simp only at h
        split at h <;> cases h
      | directory mode => cases h
      | link target => exact absurd hnode (hlinkless _ target)
  · cases h

theorem ofText_eq_owned {answer : Except IoError String} {name : String}
    (h : Slot.ofText answer = .owned name) :
    ∃ text, answer = .ok text ∧ (Artifact.parse text).spec.name = name := by
  unfold Slot.ofText at h
  split at h
  · rename_i text
    exact ⟨text, rfl, Slot.owned.inj h⟩
  · cases h
  · cases h

theorem slotAt_eq_owned {name : String} (h : slotAt directory tree root slug = .owned name) :
    ∃ text, slotText directory tree root slug = .ok text ∧
      (Artifact.parse text).spec.name = name :=
  ofText_eq_owned h

theorem slotAt_eq_free (h : slotAt directory tree root slug = .free) :
    slotText directory tree root slug = .error .notFound := by
  unfold slotAt Slot.ofText at h
  split at h
  · cases h
  · rename_i htext
    exact htext
  · cases h

/-! ## Who owns a place -/

/-- What a store can answer when it is asked who owns a place. -/
inductive Answers (disk : Disk) : Slot → Except AgentError (Option String) → Prop where
  | free : Answers disk .free (.ok none)
  | owned (name : String) : Answers disk (.owned name) (.ok (some name))
  | unreadable (cause : IoError) : Answers disk (.unreadable cause) (.error (.file cause))
  | fault {slot : Slot} (cause : IoError) :
    some cause ∈ disk.faults → Answers disk slot (.error (.file cause))

/-- What a store says about the owner of a file after reading it. -/
def ownerOf : Except IoError String → Except AgentError (Option String)
  | .ok text => .ok (some (Artifact.parse text).spec.name)
  | .error .notFound => .ok none
  | .error cause => .error (.file cause)

theorem answers_ownerOf (hhonest : disk.Honest) {truth answer : Except IoError String}
    (h : disk.Tells truth answer) : Answers disk (.ofText truth) (ownerOf answer) := by
  rcases h with rfl | ⟨cause, hfault, rfl⟩
  · cases answer with
    | ok text => exact .owned _
    | error cause => cases cause <;> first | exact .free | exact .unreadable _
  · have hne : cause ≠ .notFound := by
      rintro rfl
      exact hhonest hfault
    cases cause <;> first | exact absurd rfl hne | exact .fault _ hfault

theorem owner_answers (store : Store) (slug : String) (hhonest : bench.disk.Honest) :
    Answers bench.disk (slotOn store.directory bench.disk slug) (store.owner slug bench).1 ∧
      bench.disk.Kept (store.owner slug bench).2.disk := by
  obtain ⟨answer, after, hread⟩ : ∃ answer after,
      bench.disk.readText (store.artifactPath slug) = (answer, after) := ⟨_, _, rfl⟩
  have hlook := bench.disk.look_tells
    (bench.disk.tree.readText bench.disk.home (store.artifactPath slug))
  rw [← Disk.readText, hread] at hlook
  obtain ⟨htells, hkept⟩ := hlook
  have hanswers := answers_ownerOf hhonest htells
  simp only [owner, read, readPath, Workbench.doing, hread]
  cases answer with
  | ok text => exact ⟨hanswers, hkept⟩
  | error cause => cases cause <;> exact ⟨hanswers, hkept⟩

end Store
end Agentry
