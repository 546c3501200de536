import Agentry.Files.Disk
import Agentry.Proofs.Files.Tree
/-!
# Files in a directory

The path of a directory with a name behind it leads to the entry of that name, if the path is not
too long. What is put there stays in the directory, and every other entry is what it was.
-/
namespace Agentry.FileTree

variable {tree : FileTree} {home root : Location} {base name : String}

/-- Whether a name behind a path is short enough to be looked up. -/
def Fits (base name : String) : Prop :=
  (Path.join base name).utf8ByteSize < pathLimit ∧ name.utf8ByteSize ≤ nameLimit

instance (base name : String) : Decidable (Fits base name) :=
  inferInstanceAs (Decidable (_ ∧ _))

/-- A directory in which nothing is a link. -/
def Linkless (tree : FileTree) (root : Location) : Prop :=
  ∀ name target, tree.get? (root ++ [name]) ≠ some (.link target)

theorem linkless_of_nodes (h : ∀ entry ∈ tree.nodes, ∀ target, entry.2 ≠ .link target)
    (root : Location) : tree.Linkless root := by
  intro name target hlink
  rw [get?, if_neg (by simp)] at hlink
  obtain ⟨entry, hentry, hnode⟩ := Option.map_eq_some_iff.mp hlink
  exact h entry (List.mem_of_find?_eq_some hentry) target hnode

theorem locate_of_path {arrival : Arrival} {path : String} (hnul : '\x00' ∉ path.toList)
    (hempty : path ≠ "") (hlength : path.utf8ByteSize < pathLimit) :
    tree.locate home arrival path =
      walk tree arrival linkLimit (linkStart home path) (Path.steps path) := by
  have hisEmpty : path.isEmpty = false := by simpa using hempty
  rw [locate, if_neg (by simpa using hnul), hisEmpty, if_neg (by simp), if_neg (by omega)]
  rfl

theorem locate_eq_ok_iff {arrival : Arrival} {path : String} {loc : Location} :
    tree.locate home arrival path = .ok loc ↔
      ('\x00' ∉ path.toList ∧ path ≠ "" ∧ path.utf8ByteSize < pathLimit) ∧
        walk tree arrival linkLimit (linkStart home path) (Path.steps path) = .ok loc := by
  constructor
  · intro h
    have hpath : '\x00' ∉ path.toList ∧ path ≠ "" ∧ path.utf8ByteSize < pathLimit := by
      unfold locate at h
      split at h
      · cases h
      rename_i hnul
      split at h
      · cases h
      rename_i hempty
      split at h
      · cases h
      rename_i hlength
      refine ⟨by simpa using hnul, ?_, by omega⟩
      rintro rfl
      exact hempty rfl
    rw [locate_of_path hpath.1 hpath.2.1 hpath.2.2] at h
    exact ⟨hpath, h⟩
  · rintro ⟨⟨hnul, hempty, hlength⟩, h⟩
    rwa [locate_of_path hnul hempty hlength]

theorem reaches_of_directory (h : tree.directory home base = .ok root) :
    '\x00' ∉ base.toList ∧ base ≠ "" ∧ base.utf8ByteSize < pathLimit ∧
      tree.isDirectoryAt root = true ∧
      Reaches tree linkLimit (linkStart home base) (Path.steps base) root := by
  simp only [directory, bind, Except.bind] at h
  split at h
  · cases h
  rename_i loc hloc
  split at h
  · rename_i hdir
    cases h
    obtain ⟨⟨hnul, hempty, hlength⟩, hwalk⟩ := locate_eq_ok_iff.mp hloc
    exact ⟨hnul, hempty, hlength, hdir, walk_existing_iff.mp hwalk⟩
  · cases h

theorem directory_of_reaches (hnul : '\x00' ∉ base.toList) (hempty : base ≠ "")
    (hlength : base.utf8ByteSize < pathLimit) (hdir : tree.isDirectoryAt root = true)
    (hreaches : Reaches tree linkLimit (linkStart home base) (Path.steps base) root) :
    tree.directory home base = .ok root := by
  simp only [directory, locate_of_path hnul hempty hlength, walk_existing_iff.mpr hreaches, bind,
    Except.bind, hdir, if_true]

/-- Where the path of a directory with a name behind it leads. -/
theorem locate_join (h : tree.directory home base = .ok root) (hname : Path.IsName name)
    (hlinkless : tree.Linkless root) (arrival : Arrival) :
    tree.locate home arrival (Path.join base name) =
      if Fits base name then
        if tree.get? (root ++ [name]) = none ∧ arrival = .existing then .error .notFound
        else .ok (root ++ [name])
      else .error .nameTooLong := by
  obtain ⟨hnul, hempty, -, hdir, hreaches⟩ := reaches_of_directory h
  have hjoinNul := mt (Path.nul_mem_join hempty hname).mp hnul
  have hjoinEmpty := Path.join_ne_empty hempty hname
  by_cases hlength : (Path.join base name).utf8ByteSize < pathLimit
  · obtain ⟨front, hsteps, hfront⟩ := Path.steps_join base
    have hway : Reaches tree linkLimit (linkStart home base) front root := by
      rcases hfront with hfront | hfront
      · rwa [hfront] at hreaches
      · rw [hfront] at hreaches
        exact hreaches.of_append_stay
    obtain ⟨m, hm⟩ := hway.walk_append
    have hstart : linkStart home (Path.join base name) = linkStart home base := by
      rw [linkStart, linkStart, Path.isAbsolute_join base hname]
    rw [locate_of_path hjoinNul hjoinEmpty hlength, hsteps hname, hstart, hm arrival (by simp)]
    by_cases hsize : name.utf8ByteSize ≤ nameLimit
    · have hstep : IsStep name := ⟨hname.ne_here, hname.ne_parent, hsize⟩
      have hfits : Fits base name := ⟨hlength, hsize⟩
      rw [walk_step hdir hstep]
      simp only [hfits, if_true]
      split
      · rename_i hnone
        cases arrival <;> simp [hnone]
      · rename_i target hlink
        exact absurd hlink (hlinkless name target)
      · rename_i node hnotLink hnode
        simp [walk_nil, hnode]
    · rw [if_neg fun hfits => hsize hfits.2, walk_eq, follow]
      simp [hdir, hname.ne_here, hname.ne_parent, Nat.not_le.mp hsize]
  · have hisEmpty : (Path.join base name).isEmpty = false := by simpa using hjoinEmpty
    rw [if_neg fun hfits => hlength hfits.1, locate, if_neg (by simpa using hjoinNul), hisEmpty,
      if_neg (by simp), if_pos (by omega)]

/-! ## Reading an entry -/

/-- The text of an entry. -/
def entryText (tree : FileTree) (root : Location) (name : String) : Except IoError String :=
  match tree.get? (root ++ [name]) with
  | some (.file bytes _) =>
    match String.fromUTF8? bytes with
    | some text => .ok text
    | none => .error .invalidUtf8
  | some (.directory _) => .error .isADirectory
  | _ => .error .notFound

theorem fromUTF8?_eq_some_iff {bytes : ByteArray} {text : String} :
    String.fromUTF8? bytes = some text ↔ bytes = text.toUTF8 := by
  unfold String.fromUTF8?
  constructor
  · intro h
    split at h
    · cases h
      rfl
    · cases h
  · rintro rfl
    exact dif_pos text.isValidUTF8

theorem entryText_eq_ok_iff {text : String} : tree.entryText root name = .ok text ↔
    ∃ mode, tree.get? (root ++ [name]) = some (.file text.toUTF8 mode) := by
  constructor
  · intro h
    unfold entryText at h
    split at h
    · rename_i bytes mode hnode
      split at h
      · rename_i hbytes
        cases h
        exact ⟨mode, by rw [hnode, fromUTF8?_eq_some_iff.mp hbytes]⟩
      · cases h
    · cases h
    · cases h
  · rintro ⟨mode, hnode⟩
    simp only [entryText, hnode, fromUTF8?_eq_some_iff.mpr rfl]

theorem readText_join (h : tree.directory home base = .ok root) (hname : Path.IsName name)
    (hlinkless : tree.Linkless root) :
    tree.readText home (Path.join base name) =
      if Fits base name then tree.entryText root name else .error .nameTooLong := by
  simp only [readText, readBytes, locate_join h hname hlinkless, bind, Except.bind]
  by_cases hfits : Fits base name
  · simp only [hfits, if_true, entryText]
    cases hnode : tree.get? (root ++ [name]) with
    | none => simp
    | some node =>
      simp only [reduceCtorEq, false_and, if_false, hnode]
      cases node <;> rfl
  · simp [hfits]

theorem mode_join (h : tree.directory home base = .ok root) (hname : Path.IsName name)
    (hlinkless : tree.Linkless root) (hfits : Fits base name) :
    tree.mode home (Path.join base name) =
      match tree.get? (root ++ [name]) with
      | some (.file _ mode) => .ok mode
      | some (.directory mode) => .ok mode
      | _ => .error .notFound := by
  simp only [mode, locate_join h hname hlinkless, bind, Except.bind, hfits, if_true]
  cases hnode : tree.get? (root ++ [name]) with
  | none => simp
  | some node =>
    cases node <;> simp [hnode]

/-! ## Putting a file in place -/

theorem replaceEntry_join (h : tree.directory home base = .ok root) (hname : Path.IsName name)
    (hlinkless : tree.Linkless root) (hfits : Fits base name)
    (hplace : tree.isDirectoryAt (root ++ [name]) = false) (bytes : ByteArray) (mode : Nat) :
    tree.replaceEntry home (Path.join base name) bytes mode =
      .ok (tree.put (root ++ [name]) (.file bytes mode)) := by
  simp only [replaceEntry, locate_join h hname hlinkless, bind, Except.bind, hfits, if_true,
    reduceCtorEq, and_false, if_false]
  split
  · rename_i mode hnode
    rw [isDirectoryAt, hnode] at hplace
    cases hplace
  · rfl

theorem get?_put_entry (node : Node) (other : String) :
    (tree.put (root ++ [name]) node).get? (root ++ [other]) =
      if other = name then some node else tree.get? (root ++ [other]) := by
  rw [get?_put (by simp)]
  simp

theorem entryText_put_entry (text other : String) (mode : Nat) :
    (tree.put (root ++ [name]) (.file text.toUTF8 mode)).entryText root other =
      if other = name then .ok text else tree.entryText root other := by
  by_cases hother : other = name
  · rw [if_pos hother, entryText_eq_ok_iff]
    exact ⟨mode, by rw [get?_put_entry, if_pos hother]⟩
  · simp only [entryText, get?_put_entry, hother, if_false]

theorem linkless_put (hlinkless : tree.Linkless root) (bytes : ByteArray) (mode : Nat) :
    (tree.put (root ++ [name]) (.file bytes mode)).Linkless root := by
  intro other target
  rw [get?_put_entry]
  split
  · simp
  · exact hlinkless other target

theorem directory_put (h : tree.directory home base = .ok root) (hlinkless : tree.Linkless root)
    (hplace : tree.isDirectoryAt (root ++ [name]) = false) (node : Node) :
    (tree.put (root ++ [name]) node).directory home base = .ok root := by
  obtain ⟨hnul, hempty, hlength, hdir, hreaches⟩ := reaches_of_directory h
  have hagree : ∀ other, other ≠ root ++ [name] →
      (tree.put (root ++ [name]) node).get? other = tree.get? other := by
    intro other hother
    rw [get?_put (by simp), if_neg hother]
  refine directory_of_reaches hnul hempty hlength ?_
    (hreaches.of_agree hdir hplace (hlinkless name) hagree)
  obtain ⟨mode, hmode⟩ := isDirectoryAt_iff.mp hdir
  exact isDirectoryAt_iff.mpr ⟨mode, by rw [hagree root (by simp), hmode]⟩

/-! ## Making a directory that is there -/

theorem reaches_movingSteps (h : tree.directory home base = .ok root) :
    Reaches tree linkLimit (linkStart home base)
      ((Path.movingSteps base.toList).map String.ofList) root := by
  rw [Path.movingSteps_eq]
  exact (reaches_of_directory h).2.2.2.2.thinned (thinned_filter _)

theorem makeDirectory_of_directory (h : tree.directory home base = .ok root) :
    tree.makeDirectory (linkStart home base) ((Path.movingSteps base.toList).map String.ofList) =
      .error .alreadyExists := by
  obtain ⟨place, hwalk, hplace⟩ := (reaches_movingSteps h).walk_entry
  have hsome : tree.get? place ≠ none := by
    rcases hplace with rfl | hplace
    · obtain ⟨mode, hmode⟩ := isDirectoryAt_iff.mp (reaches_of_directory h).2.2.2.1
      simp [hmode]
    · exact hplace
  simp only [makeDirectory, hwalk, bind, Except.bind]
  split
  · rfl
  · rename_i hnone
    exact absurd hnone hsome

end Agentry.FileTree
