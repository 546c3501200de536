import Agentry.Proofs.Files.Directory
import Mathlib.Data.List.Nodup
/-!
# An entry that gives way to a file

What stands in the place of a new file may be a link, and ways to other files may lead over it. If
such a way breaks off when the file is put there, the path of the file led to something before.
-/
namespace Agentry.FileTree

variable {tree mid after : FileTree} {home here root place loc : Location} {steps : List String}
  {n m : Nat} {base name other path text target : String} {bytes : ByteArray} {mode : Nat}

/-! ## Ways and their links -/

theorem Reaches.unique {loc' : Location} (h : Reaches tree n here steps loc)
    (h' : Reaches tree n here steps loc') : loc = loc' := by
  have hwalk := walk_existing_iff.mpr h
  rw [walk_existing_iff.mpr h'] at hwalk
  exact (Except.ok.inj hwalk).symm

/-- Every way that goes on somewhere is one in two parts. -/
theorem Reaches.split {front rest : List String} (h : Reaches tree n here (front ++ rest) loc) :
    ∃ m mid, Reaches tree n here front mid ∧ Reaches tree m mid rest loc := by
  generalize hall : front ++ rest = all at h
  induction h generalizing front with
  | @here n here =>
    obtain ⟨rfl, rfl⟩ := List.append_eq_nil_iff.mp hall
    exact ⟨n, here, .here, .here⟩
  | @stay n here _ _ hdir hrest ih =>
    cases front with
    | nil =>
      obtain rfl : rest = _ := hall
      exact ⟨n, here, .here, .stay hdir hrest⟩
    | cons step front =>
      obtain ⟨rfl, htail⟩ := List.cons.inj hall
      obtain ⟨m, mid, hfront, hmid⟩ := ih htail
      exact ⟨m, mid, .stay hdir hfront, hmid⟩
  | @up n here _ _ hdir hrest ih =>
    cases front with
    | nil =>
      obtain rfl : rest = _ := hall
      exact ⟨n, here, .here, .up hdir hrest⟩
    | cons step front =>
      obtain ⟨rfl, htail⟩ := List.cons.inj hall
      obtain ⟨m, mid, hfront, hmid⟩ := ih htail
      exact ⟨m, mid, .up hdir hfront, hmid⟩
  | @down n here _ _ _ _ hdir hstep hnode hlink hrest ih =>
    cases front with
    | nil =>
      obtain rfl : rest = _ := hall
      exact ⟨n, here, .here, .down hdir hstep hnode hlink hrest⟩
    | cons step front =>
      obtain ⟨rfl, htail⟩ := List.cons.inj hall
      obtain ⟨m, mid, hfront, hmid⟩ := ih htail
      exact ⟨m, mid, .down hdir hstep hnode hlink hfront, hmid⟩
  | @link n here _ _ target _ hdir hstep hnode hrest ih =>
    cases front with
    | nil =>
      obtain rfl : rest = _ := hall
      exact ⟨n + 1, here, .here, .link hdir hstep hnode hrest⟩
    | cons step front =>
      obtain ⟨rfl, htail⟩ := List.cons.inj hall
      have hsteps : (Path.steps target ++ front) ++ rest = Path.steps target ++ _ :=
        (List.append_assoc _ _ _).trans (congrArg _ htail)
      obtain ⟨m, mid, hfront, hmid⟩ := ih hsteps
      exact ⟨m, mid, .link hdir hstep hnode hfront, hmid⟩

/-- With any other number of links to spare, a walk ends in the same place or runs out of links. -/
theorem Reaches.walk_or_tooManyLinks (h : Reaches tree n here steps loc) (m : Nat) :
    walk tree .existing m here steps = .ok loc ∨
      walk tree .existing m here steps = .error .tooManyLinks := by
  induction h generalizing m with
  | here => exact Or.inl (walk_nil _ _ _)
  | stay hdir _ ih => rw [walk_stay hdir]; exact ih m
  | up hdir _ ih => rw [walk_up hdir]; exact ih m
  | down hdir hstep hnode hlink _ ih => rw [walk_down hdir hstep hnode hlink]; exact ih m
  | link hdir hstep hnode _ ih =>
    cases m with
    | zero =>
      right
      rw [walk_step hdir hstep, hnode]
      simp [onward]
    | succ m =>
      rw [walk_link hdir hstep hnode (by simp)]
      exact ih m

theorem Reaches.isDirectoryAt_of_cons {step : String}
    (h : Reaches tree n here (step :: steps) loc) : tree.isDirectoryAt here = true := by
  cases h <;> assumption

/-- No way goes on from a place that is not a directory. -/
theorem Reaches.eq_of_not_directory (hdir : tree.isDirectoryAt here = false)
    (h : Reaches tree n here steps loc) : steps = [] ∧ loc = here := by
  cases steps with
  | nil =>
    cases h
    exact ⟨rfl, rfl⟩
  | cons step steps =>
    rw [h.isDirectoryAt_of_cons] at hdir
    cases hdir

/-! ## Putting the file -/

theorem isDirectoryAt_put (hplace : mid.isDirectoryAt place = false) :
    (mid.put place (.file bytes mode)).isDirectoryAt loc = mid.isDirectoryAt loc := by
  have hne : place ≠ [] := by
    rintro rfl
    simp [isDirectoryAt, get?] at hplace
  by_cases hloc : loc = place
  · rw [hloc, hplace, isDirectoryAt, get?_put hne, if_pos rfl]
  · rw [isDirectoryAt, get?_put hne, if_neg hloc, isDirectoryAt]

/-- The path of a new file leads to it, or nowhere. -/
theorem Reaches.eq_place (hplace : mid.isDirectoryAt place = false)
    (hwalk : walk mid .entry n here steps = .ok place)
    (h : Reaches (mid.put place (.file bytes mode)) n here steps loc) : loc = place := by
  have hne : place ≠ [] := by
    rintro rfl
    simp [isDirectoryAt, get?] at hplace
  induction h with
  | here =>
    rw [walk_nil] at hwalk
    exact Except.ok.inj hwalk
  | stay hdir _ ih =>
    rw [isDirectoryAt_put hplace] at hdir
    rw [walk_stay hdir] at hwalk
    exact ih hwalk
  | up hdir _ ih =>
    rw [isDirectoryAt_put hplace] at hdir
    rw [walk_up hdir] at hwalk
    exact ih hwalk
  | @down n here loc step rest node hdir hstep hnode hlink hrest ih =>
    rw [isDirectoryAt_put hplace] at hdir
    by_cases hhere : here ++ [step] = place
    · rw [hhere] at hrest
      exact (hrest.eq_of_not_directory (by rw [isDirectoryAt_put hplace, hplace])).2
    · rw [get?_put hne, if_neg hhere] at hnode
      rw [walk_down hdir hstep hnode hlink] at hwalk
      exact ih hwalk
  | @link n here loc step target rest hdir hstep hnode hrest ih =>
    rw [isDirectoryAt_put hplace] at hdir
    rw [get?_put hne] at hnode
    split at hnode
    · cases hnode
    rename_i hhere
    cases rest with
    | nil =>
      -- The walk ends at this link, so the link stands in the place of the file.
      rw [walk_step hdir hstep, hnode] at hwalk
      exact absurd (Except.ok.inj hwalk) hhere
    | cons next rest =>
      rw [walk_link hdir hstep hnode (by simp)] at hwalk
      exact ih hwalk

/-- Ways are the same when a file is put somewhere, but for those that end there or lead over a link
that stood there. -/
theorem Reaches.put_cases (bytes : ByteArray) (mode : Nat) (hextends : Extends tree mid)
    (hplace : mid.isDirectoryAt place = false)
    (h : Reaches tree n here steps loc) :
    Reaches (mid.put place (.file bytes mode)) n here steps loc ∨ loc = place ∨
      ∃ m before step target rest, before ++ [step] = place ∧
        tree.get? place = some (.link target) ∧
        Reaches tree m (linkStart before target) (Path.steps target ++ rest) loc := by
  have hne : place ≠ [] := by
    rintro rfl
    simp [isDirectoryAt, get?] at hplace
  have hput : ∀ {at' : Location}, tree.isDirectoryAt at' = true →
      (mid.put place (.file bytes mode)).isDirectoryAt at' = true := by
    intro at' hdir
    rw [isDirectoryAt_put hplace, hextends.isDirectoryAt hdir]
  induction h with
  | here => exact Or.inl .here
  | stay hdir _ ih => exact ih.imp_left (.stay (hput hdir))
  | up hdir _ ih => exact ih.imp_left (.up (hput hdir))
  | @down n here loc step rest node hdir hstep hnode hlink hrest ih =>
    by_cases hhere : here ++ [step] = place
    · have hfile : tree.isDirectoryAt (here ++ [step]) = false := by
        rw [hhere]
        by_contra hdir
        rw [hextends.isDirectoryAt (by simpa using hdir)] at hplace
        cases hplace
      exact Or.inr (Or.inl ((hrest.eq_of_not_directory hfile).2.trans hhere))
    · have hnode' : (mid.put place (.file bytes mode)).get? (here ++ [step]) = some node := by
        rw [get?_put hne, if_neg hhere, hextends _ _ hnode]
      exact ih.imp_left (.down (hput hdir) hstep hnode' hlink)
  | @link n here loc step target rest hdir hstep hnode hrest ih =>
    by_cases hhere : here ++ [step] = place
    · rw [hhere] at hnode
      exact Or.inr (Or.inr ⟨n, here, step, target, rest, hhere, hnode, hrest⟩)
    · have hnode' : (mid.put place (.file bytes mode)).get? (here ++ [step]) =
          some (.link target) := by
        rw [get?_put hne, if_neg hhere, hextends _ _ hnode]
      exact ih.imp_left (.link (hput hdir) hstep hnode')

/-! ## Reading afterwards -/

theorem readText_eq_ok_iff : tree.readText home path = .ok text ↔
    ∃ loc mode, tree.locate home .existing path = .ok loc ∧
      tree.get? loc = some (.file text.toUTF8 mode) := by
  constructor
  · intro h
    cases hloc : tree.locate home .existing path with
    | error cause => simp [readText, readBytes, bind, Except.bind, hloc] at h
    | ok loc =>
      simp only [readText, readBytes, bind, Except.bind, hloc] at h
      cases hnode : tree.get? loc with
      | none => simp [hnode] at h
      | some node =>
        cases node with
        | file bytes mode =>
          cases hbytes : String.fromUTF8? bytes with
          | none => simp [hnode, hbytes] at h
          | some read =>
            obtain rfl : read = text := by simpa [hnode, hbytes] using h
            exact ⟨loc, mode, rfl, by rw [hnode, fromUTF8?_eq_some_iff.mp hbytes]⟩
        | directory mode => simp [hnode] at h
        | link target => simp [hnode] at h
  · rintro ⟨loc, mode, hloc, hnode⟩
    simp only [readText, readBytes, bind, Except.bind, hloc, hnode,
      fromUTF8?_eq_some_iff.mpr rfl]

theorem place_of_replaceEntry (h : mid.replaceEntry home path bytes mode = .ok after) :
    ∃ place, mid.locate home .entry path = .ok place ∧ mid.isDirectoryAt place = false ∧
      after = mid.put place (.file bytes mode) := by
  simp only [replaceEntry, bind, Except.bind] at h
  split at h
  · cases h
  rename_i place hplace
  split at h
  · cases h
  rename_i hdir
  refine ⟨place, hplace, ?_, (Except.ok.inj h).symm⟩
  by_contra hcontra
  obtain ⟨mode, hmode⟩ := isDirectoryAt_iff.mp (by simpa using hcontra)
  exact hdir mode hmode

/-- What is read under the path of a new file is that file. -/
theorem readText_of_replaceEntry (hput : mid.replaceEntry home path bytes mode = .ok after)
    (hread : after.readText home path = .ok text) : bytes = text.toUTF8 := by
  obtain ⟨place, hplace, hdir, rfl⟩ := place_of_replaceEntry hput
  obtain ⟨loc, mode', hloc, hfile⟩ := readText_eq_ok_iff.mp hread
  have hwalk := (locate_eq_ok_iff.mp hplace).2
  have hreaches := walk_existing_iff.mp (locate_eq_ok_iff.mp hloc).2
  have hne : place ≠ [] := by
    rintro rfl
    simp [isDirectoryAt, get?] at hdir
  rw [hreaches.eq_place hdir hwalk, get?_put hne, if_pos rfl] at hfile
  cases hfile
  rfl

/-- Of a directory that a path leads to, this is the entry that the path with a name behind it
stands for. -/
theorem walk_entry_name {front : List String} (h : Reaches tree n here front root)
    (hdir : tree.isDirectoryAt root = true) (hname : name ≠ "." ∧ name ≠ "..")
    (hwalk : walk tree .entry n here (front ++ [name]) = .ok place) :
    place = root ++ [name] ∧ IsStep name := by
  obtain ⟨m, hm⟩ := h.walk_append
  rw [hm .entry (by simp)] at hwalk
  by_cases hsize : name.utf8ByteSize ≤ nameLimit
  · have hstep : IsStep name := ⟨hname.1, hname.2, hsize⟩
    refine ⟨?_, hstep⟩
    rw [walk_step hdir hstep] at hwalk
    split at hwalk
    · exact (Except.ok.inj hwalk).symm
    · exact (Except.ok.inj hwalk).symm
    · rw [walk_nil] at hwalk
      exact (Except.ok.inj hwalk).symm
  · rw [walk_eq, follow] at hwalk
    simp [hdir, hname.1, hname.2, Nat.not_le.mp hsize] at hwalk

theorem linkStart_join (base : String) (hname : Path.IsName name) :
    linkStart home (Path.join base name) = linkStart home base := by
  rw [linkStart, linkStart, Path.isAbsolute_join base hname]

/-- A path ends at a link, and a way over that link leads to a text. Then the path is one of a file
with this text, or one that cannot be read. -/
theorem readText_of_link {rest : List String} {k : Nat} (hroot : tree.isDirectoryAt root = true)
    (hstep : IsStep name)
    (hlocate : tree.locate home .existing path = walk tree .existing m root [name])
    (hlink : tree.get? (root ++ [name]) = some (.link target))
    (hbehind : Reaches tree k (linkStart root target) (Path.steps target ++ rest) loc)
    (hfile : tree.get? loc = some (.file text.toUTF8 mode)) :
    tree.readText home path = .ok text ∨
      ∃ cause, cause ≠ .notFound ∧ tree.readText home path = .error cause := by
  obtain ⟨j, target', htarget, hrest⟩ := hbehind.split
  have hwalk : tree.locate home .existing path = .ok target' ∨
      tree.locate home .existing path = .error .tooManyLinks := by
    rw [hlocate]
    cases m with
    | zero =>
      right
      rw [walk_step hroot hstep, hlink]
      simp [onward]
    | succ m =>
      rw [walk_link hroot hstep hlink (by simp), List.append_nil]
      exact htarget.walk_or_tooManyLinks m
  rcases hwalk with hwalk | hwalk
  · cases rest with
    | nil =>
      cases hrest
      exact Or.inl (readText_eq_ok_iff.mpr ⟨loc, mode, hwalk, hfile⟩)
    | cons next rest =>
      obtain ⟨mode', hmode⟩ := isDirectoryAt_iff.mp hrest.isDirectoryAt_of_cons
      refine Or.inr ⟨.isADirectory, by simp, ?_⟩
      simp [readText, readBytes, bind, Except.bind, hwalk, hmode]
  · refine Or.inr ⟨.tooManyLinks, by simp, ?_⟩
    simp [readText, readBytes, bind, Except.bind, hwalk]

/-- What one path leads to before a file is put in the place of another that differs in its last
name, it leads to afterwards, unless it ended there or leads over a link that stood there. In that
case the other path was one of a file with the same text, or one that could not be read. -/
theorem readText_replaceEntry_cases (hname : Path.IsName name) (hother : Path.IsName other)
    (hextends : Extends tree mid) (hread : tree.readText home (Path.join base other) = .ok text)
    (hput : mid.replaceEntry home (Path.join base name) bytes mode = .ok after) :
    after.readText home (Path.join base other) = .ok text ∨
      tree.readText home (Path.join base name) = .ok text ∨
      ∃ cause, cause ≠ .notFound ∧
        tree.readText home (Path.join base name) = .error cause := by
  obtain ⟨place, hplace, hdir, rfl⟩ := place_of_replaceEntry hput
  obtain ⟨loc, mode', hloc, hfile⟩ := readText_eq_ok_iff.mp hread
  obtain ⟨hpath, hwalk⟩ := locate_eq_ok_iff.mp hplace
  obtain ⟨hpath', hwalk'⟩ := locate_eq_ok_iff.mp hloc
  have hne : place ≠ [] := by
    rintro rfl
    simp [isDirectoryAt, get?] at hdir
  obtain ⟨front, hsteps, -⟩ := Path.steps_join base
  rw [linkStart_join base hname, hsteps hname] at hwalk
  rw [linkStart_join base hother, hsteps hother] at hwalk'
  have hreaches := walk_existing_iff.mp hwalk'
  -- Both paths lead to one directory before they part.
  obtain ⟨m', root, hfront, hlast⟩ := hreaches.split
  have hroot := hlast.isDirectoryAt_of_cons
  obtain ⟨hentry, hstep⟩ := walk_entry_name (hfront.extends hextends)
    (hextends.isDirectoryAt hroot) ⟨hname.ne_here, hname.ne_parent⟩ hwalk
  obtain ⟨m, hm⟩ := hfront.walk_append
  have hlocate : tree.locate home .existing (Path.join base name) =
      walk tree .existing m root [name] := by
    rw [locate_of_path hpath.1 hpath.2.1 hpath.2.2, linkStart_join base hname, hsteps hname,
      hm .existing (by simp)]
  have hsame : loc = place → tree.readText home (Path.join base name) = .ok text := by
    rintro rfl
    refine readText_eq_ok_iff.mpr ⟨loc, mode', ?_, hfile⟩
    rw [hentry] at hfile ⊢
    rw [hlocate, walk_down hroot hstep hfile (by rintro ⟨target, h⟩; cases h), walk_nil]
  rcases hreaches.put_cases bytes mode hextends hdir with
    hreaches' | hhere | ⟨k, before, step, target, rest, hbefore, hlink, hbehind⟩
  · by_cases hhere : loc = place
    · exact Or.inr (Or.inl (hsame hhere))
    · left
      refine readText_eq_ok_iff.mpr ⟨loc, mode', locate_eq_ok_iff.mpr ⟨hpath', ?_⟩, ?_⟩
      · rw [linkStart_join base hother, hsteps hother]
        exact walk_existing_iff.mpr hreaches'
      · rw [get?_put hne, if_neg hhere, hextends _ _ hfile]
  · exact Or.inr (Or.inl (hsame hhere))
  -- The link that stood there led the one way to the text, so it leads the other there as well.
  right
  obtain ⟨rfl, -⟩ : before = root ∧ [step] = [name] :=
    List.append_inj' (hbefore.trans hentry) rfl
  rw [hentry] at hlink
  exact readText_of_link hroot hstep hlocate hlink hbehind hfile

/-- A name that can be read is an entry of the directory that the steps in front of it lead to. -/
theorem entry_of_readText {front : List String} (hsteps : Path.steps (Path.join base name) =
    front ++ [name]) (hname : Path.IsName name)
    (hread : tree.readText home (Path.join base name) = .ok text) :
    ∃ root, Reaches tree linkLimit (linkStart home base) front root ∧
      tree.get? (root ++ [name]) ≠ none := by
  obtain ⟨loc, mode, hloc, -⟩ := readText_eq_ok_iff.mp hread
  have hreaches := walk_existing_iff.mp (locate_eq_ok_iff.mp hloc).2
  rw [linkStart_join base hname, hsteps] at hreaches
  obtain ⟨m, root, hfront, hlast⟩ := hreaches.split
  refine ⟨root, hfront, ?_⟩
  cases hlast with
  | stay => exact absurd rfl hname.ne_here
  | up => exact absurd rfl hname.ne_parent
  | down _ _ hnode => simp [hnode]
  | link _ _ hnode => simp [hnode]

/-- The path that leads to the directory in which the names behind a path are looked up. -/
def directoryPath (base : String) : String :=
  if base = "" then "." else base

theorem reaches_of_directoryPath {front : List String}
    (hfront : Path.steps base = front ∨ Path.steps base = front ++ ["."])
    (h : tree.directory home (directoryPath base) = .ok root) :
    Reaches tree linkLimit (linkStart home base) front root := by
  have hreaches := (reaches_of_directory h).2.2.2.2
  rw [directoryPath] at hreaches
  split at hreaches
  · rename_i hempty
    subst hempty
    have hnil : front = [] := by
      rcases hfront with hfront | hfront
      · exact hfront.symm
      · exact absurd hfront (by simp [Path.steps, Path.pieces, Text.splitOn])
    rw [hnil]
    exact hreaches.of_append_stay
  · rcases hfront with hfront | hfront
    · rwa [hfront] at hreaches
    · rw [hfront] at hreaches
      exact hreaches.of_append_stay

/-- There are no more names that can be read behind the path of a directory than there are entries
in the directory. -/
theorem length_le_names_of_reads {names : List String} (hnodup : names.Nodup)
    (h : tree.directory home (directoryPath base) = .ok root)
    (hreads : ∀ name ∈ names, Path.IsName name ∧
      ∃ text, tree.readText home (Path.join base name) = .ok text) :
    names.length ≤ (tree.names root).eraseDups.length := by
  obtain ⟨front, hsteps, hfront⟩ := Path.steps_join base
  have hroot := reaches_of_directoryPath hfront h
  apply hnodup.length_le_of_subset
  intro name hmem
  obtain ⟨hname, text, hread⟩ := hreads name hmem
  obtain ⟨root', hroot', hnode⟩ := entry_of_readText (hsteps hname) hname hread
  rw [← hroot.unique hroot'] at hnode
  exact List.mem_eraseDups.mpr (mem_names_of_get? hnode)

end Agentry.FileTree
