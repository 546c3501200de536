import Agentry.Proofs.Files.Directory
/-!
# Operations on a disk

An operation on a disk takes a fault of the schedule, or does to the tree what it says. As long as
no fault reports that a file is missing, a directory that is there can be made again.
-/
namespace Agentry.Disk

variable {α : Type} {disk after : Disk} {root : Location} {path : String}

/-- The same files, on a disk where nothing fails by itself. -/
def mended (disk : Disk) : Disk := .sound disk.tree disk.home

/-- No fault of the schedule says that a file is missing. No disk says so of a file that is there,
unless somebody else is at work on it. -/
def Honest (disk : Disk) : Prop :=
  some .notFound ∉ disk.faults

instance (disk : Disk) : Decidable disk.Honest :=
  inferInstanceAs (Decidable (¬ _))

/-- The tree is the same, and no fault is new. -/
structure Kept (before after : Disk) : Prop where
  tree : after.tree = before.tree
  home : after.home = before.home
  faults : after.faults ⊆ before.faults

theorem Kept.refl (disk : Disk) : Kept disk disk :=
  ⟨rfl, rfl, List.Subset.refl _⟩

theorem Kept.trans {a b c : Disk} (hab : Kept a b) (hbc : Kept b c) : Kept a c :=
  ⟨hbc.tree.trans hab.tree, hbc.home.trans hab.home, List.Subset.trans hbc.faults hab.faults⟩

theorem Kept.trans_tree {disk mid after : Disk} {tree : FileTree} (h : Kept disk mid)
    (hafter : Kept { mid with tree } after) : Kept { disk with tree } after :=
  ⟨hafter.tree, hafter.home.trans h.home, List.Subset.trans hafter.faults h.faults⟩

theorem Kept.honest (h : Kept disk after) (hhonest : disk.Honest) : after.Honest :=
  fun hmem => hhonest (h.faults hmem)

theorem Kept.eq (h : Kept disk after) (hfaults : disk.faults = []) : after = disk := by
  have hnil : after.faults = [] := List.eq_nil_of_subset_nil (hfaults ▸ h.faults)
  obtain ⟨tree, home, faults⟩ := after
  obtain ⟨rfl, rfl, -⟩ := h
  obtain rfl : faults = [] := hnil
  rw [← hfaults]

/-- What an operation answers: the truth, or a fault of the schedule. -/
def Tells (disk : Disk) (truth answer : Except IoError α) : Prop :=
  answer = truth ∨ ∃ cause, some cause ∈ disk.faults ∧ answer = .error cause

theorem perform_cases (disk : Disk) (operation : Except IoError (α × FileTree)) :
    (∃ cause, some cause ∈ disk.faults ∧ (disk.perform operation).1 = .error cause ∧
        Kept disk (disk.perform operation).2) ∨
      (∃ cause, operation = .error cause ∧ (disk.perform operation).1 = .error cause ∧
        Kept disk (disk.perform operation).2) ∨
      ∃ a tree, operation = .ok (a, tree) ∧ (disk.perform operation).1 = .ok a ∧
        Kept { disk with tree } (disk.perform operation).2 := by
  obtain ⟨tree, home, faults⟩ := disk
  match faults with
  | some cause :: rest =>
    exact Or.inl ⟨cause, List.mem_cons_self, rfl, rfl, rfl, List.subset_cons_self _ _⟩
  | [] =>
    right
    cases operation with
    | error cause => exact Or.inl ⟨cause, rfl, rfl, rfl, rfl, List.Subset.refl _⟩
    | ok result => exact Or.inr ⟨result.1, result.2, rfl, rfl, rfl, rfl, List.Subset.refl _⟩
  | none :: rest =>
    right
    cases operation with
    | error cause => exact Or.inl ⟨cause, rfl, rfl, rfl, rfl, List.subset_cons_self _ _⟩
    | ok result => exact Or.inr ⟨result.1, result.2, rfl, rfl, rfl, rfl, List.subset_cons_self _ _⟩

theorem look_tells (disk : Disk) (truth : Except IoError α) :
    disk.Tells truth (disk.look truth).1 ∧ Kept disk (disk.look truth).2 := by
  rw [look]
  rcases perform_cases disk (truth.map (·, disk.tree)) with
    ⟨cause, hfault, hanswer, hkept⟩ | ⟨cause, hop, hanswer, hkept⟩ | ⟨a, tree, hop, hanswer, hkept⟩
  · exact ⟨Or.inr ⟨cause, hfault, hanswer⟩, hkept⟩
  · cases truth with
    | error cause' =>
      cases hop
      exact ⟨Or.inl hanswer, hkept⟩
    | ok a => cases hop
  · cases truth with
    | error cause => cases hop
    | ok a' =>
      cases hop
      exact ⟨Or.inl hanswer, hkept⟩

/-! ## Directories -/

theorem isDirectory_of_directory (h : disk.tree.directory disk.home path = .ok root) :
    disk.isDirectory (FileTree.linkStart disk.home path)
      ((Path.movingSteps path.toList).map String.ofList) = true := by
  rw [isDirectory, FileTree.walk_existing_iff.mpr (FileTree.reaches_movingSteps h)]
  exact (FileTree.reaches_of_directory h).2.2.2.1

theorem makeDirectories_of_directory (h : disk.tree.directory disk.home path = .ok root)
    (hhonest : disk.Honest) :
    (disk.makeDirectories path).1 = .ok () ∧ Kept disk (disk.makeDirectories path).2 := by
  have hnul : '\x00' ∉ path.toList := (FileTree.reaches_of_directory h).1
  have hexists := FileTree.makeDirectory_of_directory h
  have hdir := isDirectory_of_directory h
  rw [makeDirectories, if_neg (by simpa using hnul)]
  change (makeDirectoriesFrom (FileTree.linkStart disk.home path) _ disk).1 = _ ∧
    Kept disk (makeDirectoriesFrom (FileTree.linkStart disk.home path) _ disk).2
  generalize hsteps : ((Path.movingSteps path.toList).map String.ofList).reverse = steps
  have hreverse : (Path.movingSteps path.toList).map String.ofList = steps.reverse := by
    rw [← hsteps, List.reverse_reverse]
  rw [hreverse] at hexists hdir
  cases steps with
  | nil => exact ⟨rfl, Kept.refl disk⟩
  | cons name parents =>
    obtain ⟨cause, hcause, hanswer, hkept⟩ : ∃ cause, cause ≠ .notFound ∧
        (disk.makeDirectory (FileTree.linkStart disk.home path) (name :: parents).reverse).1 =
          .error cause ∧
        Kept disk
          (disk.makeDirectory (FileTree.linkStart disk.home path) (name :: parents).reverse).2 := by
      rw [makeDirectory, hexists]
      rcases perform_cases disk (α := Unit) (.error .alreadyExists) with
        ⟨cause, hfault, hanswer, hkept⟩ | ⟨cause, hop, hanswer, hkept⟩ | ⟨a, tree, hop, -⟩
      · refine ⟨cause, ?_, hanswer, hkept⟩
        rintro rfl
        exact hhonest hfault
      · cases hop
        exact ⟨_, by simp, hanswer, hkept⟩
      · cases hop
    have hstill : isDirectory
        (disk.makeDirectory (FileTree.linkStart disk.home path) (name :: parents).reverse).2
        (FileTree.linkStart disk.home path) (name :: parents).reverse = true := by
      rw [isDirectory, hkept.tree]
      exact hdir
    rw [makeDirectoriesFrom]
    generalize disk.makeDirectory (FileTree.linkStart disk.home path) (name :: parents).reverse =
      made at hanswer hkept hstill
    obtain ⟨answer, after⟩ := made
    obtain rfl : answer = .error cause := hanswer
    cases cause with
    | notFound => exact absurd rfl hcause
    | _ =>
      simp only [hstill, if_true]
      exact ⟨trivial, hkept⟩

end Agentry.Disk
