import Agentry.Proofs.Files.Disk
/-!
# Directories on the way

Making the directories of a path leaves in place all that was there. What is new afterwards is a
directory that some first steps of the path lead to, also when not all of them could be made.
-/
namespace Agentry

namespace FileTree

/-- A location that some first steps lead to. -/
def OnWay (tree : FileTree) (start : Location) (steps : List String) (loc : Location) : Prop :=
  ∃ front, front <+: steps ∧ Reaches tree linkLimit start front loc

/-- A tree that has all that another has, and nothing more but directories on the way that some
steps take. -/
structure Paved (start : Location) (steps : List String) (before after : FileTree) : Prop where
  kept : Extends before after
  made : ∀ loc node, before.get? loc = none → after.get? loc = some node →
    node = .directory directoryMode ∧ after.OnWay start steps loc

variable {start loc : Location} {steps more : List String} {tree before after : FileTree}

theorem OnWay.extends (hextends : Extends before after) (h : before.OnWay start steps loc) :
    after.OnWay start steps loc := by
  obtain ⟨front, hfront, hreaches⟩ := h
  exact ⟨front, hfront, hreaches.extends hextends⟩

theorem OnWay.longer (hsteps : steps <+: more) (h : tree.OnWay start steps loc) :
    tree.OnWay start more loc := by
  obtain ⟨front, hfront, hreaches⟩ := h
  exact ⟨front, hfront.trans hsteps, hreaches⟩

namespace Paved

theorem refl (start : Location) (steps : List String) (tree : FileTree) :
    Paved start steps tree tree where
  kept := Extends.refl tree
  made loc node hnone hsome := by
    rw [hnone] at hsome
    cases hsome

theorem trans {a b c : FileTree} (hab : Paved start steps a b) (hbc : Paved start steps b c) :
    Paved start steps a c where
  kept := hab.kept.trans hbc.kept
  made loc node hnone hsome := by
    cases hmid : b.get? loc with
    | none => exact hbc.made loc node hmid hsome
    | some node' =>
      obtain ⟨hnode, hway⟩ := hab.made loc node' hnone hmid
      have hsame := hbc.kept loc node' hmid
      rw [hsome] at hsame
      cases hsame
      exact ⟨hnode, hway.extends hbc.kept⟩

theorem longer (hsteps : steps <+: more) (h : Paved start steps before after) :
    Paved start more before after where
  kept := h.kept
  made loc node hnone hsome := by
    obtain ⟨hnode, hway⟩ := h.made loc node hnone hsome
    exact ⟨hnode, hway.longer hsteps⟩

end Paved

theorem paved_of_makeDirectory (h : tree.makeDirectory start steps = .ok after) :
    Paved start steps tree after := by
  simp only [makeDirectory, bind, Except.bind] at h
  split at h
  · cases h
  rename_i place hwalk
  split at h
  · cases h
  rename_i hnone
  cases h
  have hplace : place ≠ [] := by
    rintro rfl
    simp [get?] at hnone
  have hput : ∀ other, (tree.put place (.directory directoryMode)).get? other =
      if other = place then some (.directory directoryMode) else tree.get? other :=
    get?_put hplace _
  have hextends : Extends tree (tree.put place (.directory directoryMode)) := by
    intro loc node hnode
    have hne : loc ≠ place := by
      rintro rfl
      rw [hnone] at hnode
      cases hnode
    rw [hput, if_neg hne, hnode]
  refine ⟨hextends, fun loc node hfree hnode => ?_⟩
  rw [hput] at hnode
  split at hnode
  · rename_i hloc
    cases hnode
    refine ⟨rfl, steps, List.prefix_refl _, ?_⟩
    rw [hloc]
    refine .of_walk hextends (Or.inr ⟨.directory directoryMode, ?_, ?_⟩) hwalk
    · rw [hput, if_pos rfl]
    · rintro ⟨target, hlink⟩
      cases hlink
  · rw [hfree] at hnode
    cases hnode

end FileTree

namespace Disk

open FileTree (Paved linkStart)

theorem makeDirectory_paved (disk : Disk) (start : Location) (steps : List String) :
    Paved start steps disk.tree (disk.makeDirectory start steps).2.tree := by
  rw [makeDirectory]
  rcases disk.perform_cases ((disk.tree.makeDirectory start steps).map ((), ·)) with
    ⟨_, _, _, hkept⟩ | ⟨_, _, _, hkept⟩ | ⟨_, tree, hop, _, hkept⟩
  · rw [hkept.tree]
    exact Paved.refl start steps disk.tree
  · rw [hkept.tree]
    exact Paved.refl start steps disk.tree
  · rw [hkept.tree]
    cases hmade : disk.tree.makeDirectory start steps with
    | error cause =>
      rw [hmade] at hop
      cases hop
    | ok after =>
      rw [hmade] at hop
      cases hop
      exact FileTree.paved_of_makeDirectory hmade

theorem ensureDirectory_paved (disk : Disk) (start : Location) (steps : List String) :
    Paved start steps disk.tree (disk.ensureDirectory start steps).2.tree := by
  have hmade := disk.makeDirectory_paved start steps
  rw [ensureDirectory]
  split
  · rename_i after heq
    rwa [heq] at hmade
  · rename_i cause after heq
    rw [heq] at hmade
    split <;> exact hmade

/-- The steps of a parent are first steps of its child. -/
theorem makeDirectoriesFrom_paved (start : Location) (steps : List String) (disk : Disk) :
    Paved start steps.reverse disk.tree (makeDirectoriesFrom start steps disk).2.tree := by
  induction steps generalizing disk with
  | nil => exact Paved.refl start [] disk.tree
  | cons name parents ih =>
    have hparents : parents.reverse <+: (name :: parents).reverse := by
      rw [List.reverse_cons]
      exact List.prefix_append _ _
    have hmade := disk.makeDirectory_paved start (name :: parents).reverse
    rw [makeDirectoriesFrom]
    split
    · rename_i mid heq
      rw [heq] at hmade
      have hrest := (ih mid).longer hparents
      split
      · rename_i last hlast
        rw [hlast] at hrest
        exact (hmade.trans hrest).trans (last.ensureDirectory_paved start _)
      · exact hmade.trans hrest
    · rename_i after heq
      rwa [heq] at hmade
    · rename_i cause after _ heq
      rw [heq] at hmade
      split <;> exact hmade

/-- A disk that differs from another at most in new directories on the way to a path. -/
def PavedTo (path : String) (before after : Disk) : Prop :=
  Paved (linkStart before.home path) ((Path.movingSteps path.toList).map String.ofList)
    before.tree after.tree

theorem PavedTo.of_kept {path : String} {disk mid after : Disk} (hkept : disk.Kept mid)
    (h : PavedTo path mid after) : PavedTo path disk after := by
  rwa [PavedTo, hkept.home, hkept.tree] at h

theorem PavedTo.trans_kept {path : String} {disk mid after : Disk} (h : PavedTo path disk mid)
    (hkept : mid.Kept after) : PavedTo path disk after := by
  rwa [PavedTo, hkept.tree]

theorem Kept.pavedTo {path : String} {disk after : Disk} (h : disk.Kept after) :
    PavedTo path disk after := by
  rw [PavedTo, h.tree]
  exact Paved.refl _ _ disk.tree

theorem makeDirectories_paved (disk : Disk) (path : String) :
    disk.PavedTo path (disk.makeDirectories path).2 := by
  rw [makeDirectories]
  split
  · exact (Kept.refl disk).pavedTo
  · have hpaved := makeDirectoriesFrom_paved (linkStart disk.home path)
      ((Path.movingSteps path.toList).map String.ofList).reverse disk
    rwa [List.reverse_reverse] at hpaved

/-! ## The current directory -/

theorem perform_home {α : Type} (disk : Disk) (operation : Except IoError (α × FileTree)) :
    (disk.perform operation).2.home = disk.home := by
  rcases disk.perform_cases operation with
    ⟨_, _, _, hkept⟩ | ⟨_, _, _, hkept⟩ | ⟨_, _, _, _, hkept⟩ <;> exact hkept.home

theorem ensureDirectory_home (disk : Disk) (start : Location) (steps : List String) :
    (disk.ensureDirectory start steps).2.home = disk.home := by
  have hmade : (disk.makeDirectory start steps).2.home = disk.home := disk.perform_home _
  rw [ensureDirectory]
  split <;> rename_i heq <;> rw [heq] at hmade
  · exact hmade
  · split <;> exact hmade

theorem makeDirectoriesFrom_home (start : Location) (steps : List String) (disk : Disk) :
    (makeDirectoriesFrom start steps disk).2.home = disk.home := by
  induction steps generalizing disk with
  | nil => rfl
  | cons name parents ih =>
    have hmade : (disk.makeDirectory start (name :: parents).reverse).2.home = disk.home :=
      disk.perform_home _
    rw [makeDirectoriesFrom]
    split
    · rename_i mid heq
      rw [heq] at hmade
      have hrest := (ih mid).trans hmade
      split
      · rename_i last hlast
        rw [hlast] at hrest
        exact (last.ensureDirectory_home start _).trans hrest
      · exact hrest
    · rename_i after heq
      rwa [heq] at hmade
    · rename_i cause after _ heq
      rw [heq] at hmade
      split <;> exact hmade

theorem makeDirectories_home (disk : Disk) (path : String) :
    (disk.makeDirectories path).2.home = disk.home := by
  rw [makeDirectories]
  split
  · rfl
  · exact makeDirectoriesFrom_home _ _ disk

end Disk
end Agentry
