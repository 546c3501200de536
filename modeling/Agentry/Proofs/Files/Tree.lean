import Agentry.Files.Tree
import Agentry.Proofs.Files.Path
/-!
# Ways through a tree

`Reaches` follows a path step by step. It says where a path leads when every link is followed and
something stands at each step. A way to a directory goes on to the names in it, leads there also
without the steps that stay in place, and is not disturbed when a file is put where no directory
and no link stood.
-/
namespace Agentry.FileTree

variable {tree : FileTree} {root here loc : Location} {name : String}

/-! ## What stands where -/

theorem find?_setNode (loc other : Location) (node : Node) (nodes : List (Location × Node)) :
    ((setNode loc node nodes).find? (·.1 == other)).map (·.2) =
      if other = loc then some node else (nodes.find? (·.1 == other)).map (·.2) := by
  induction nodes with
  | nil =>
    by_cases h : other = loc
    · simp [setNode, h]
    · simp [setNode, h, Ne.symm h]
  | cons entry nodes ih =>
    by_cases h : entry.1 = loc
    · by_cases hother : other = loc
      · simp [setNode, h, hother]
      · simp [setNode, h, hother, Ne.symm hother]
    · by_cases hother : entry.1 = other
      · have hne : other ≠ loc := fun he => h (hother.trans he)
        simp [setNode, hother, hne]
      · rw [setNode, if_neg h, List.find?_cons_of_neg (by simpa using hother),
          List.find?_cons_of_neg (by simpa using hother), ih]

theorem get?_put (hloc : loc ≠ []) (node : Node) (other : Location) :
    (tree.put loc node).get? other = if other = loc then some node else tree.get? other := by
  by_cases hother : other = []
  · simp [get?, hother, Ne.symm hloc]
  · simp only [get?, put, hother, if_false]
    exact find?_setNode loc other node tree.nodes

theorem mem_of_get? (hloc : loc ≠ []) (h : tree.get? loc ≠ none) :
    loc ∈ tree.nodes.map (·.1) := by
  rw [get?, if_neg hloc] at h
  obtain ⟨node, hnode⟩ := Option.ne_none_iff_exists'.mp h
  obtain ⟨entry, hentry, -⟩ := Option.map_eq_some_iff.mp hnode
  have hsame : entry.1 = loc := by simpa using List.find?_some hentry
  exact List.mem_map.mpr ⟨entry, List.mem_of_find?_eq_some hentry, hsame⟩

theorem isDirectoryAt_iff : tree.isDirectoryAt loc = true ↔
    ∃ mode, tree.get? loc = some (.directory mode) := by
  rw [isDirectoryAt]
  split
  · rename_i mode h
    simp [h]
  · rename_i h
    simp only [Bool.false_eq_true, false_iff, not_exists]
    exact fun mode hmode => h mode hmode

/-- All that stands in one tree stands in another. -/
def Extends (before after : FileTree) : Prop :=
  ∀ loc node, before.get? loc = some node → after.get? loc = some node

theorem Extends.refl (tree : FileTree) : Extends tree tree :=
  fun _ _ h => h

theorem Extends.trans {a b c : FileTree} (hab : Extends a b) (hbc : Extends b c) : Extends a c :=
  fun loc node h => hbc loc node (hab loc node h)

theorem Extends.isDirectoryAt {after : FileTree} (h : Extends tree after)
    (hdir : tree.isDirectoryAt loc = true) : after.isDirectoryAt loc = true := by
  obtain ⟨mode, hmode⟩ := isDirectoryAt_iff.mp hdir
  exact isDirectoryAt_iff.mpr ⟨mode, h loc _ hmode⟩

theorem get?_of_mem (h : loc ∈ tree.nodes.map (·.1)) : tree.get? loc ≠ none := by
  by_cases hloc : loc = []
  · simp [get?, hloc]
  · obtain ⟨entry, hentry, rfl⟩ := List.mem_map.mp h
    rw [get?, if_neg hloc]
    rw [ne_eq, Option.map_eq_none_iff, List.find?_eq_none]
    exact fun hnone => hnone entry hentry (by simp)

theorem mem_names_of_get? (h : tree.get? (root ++ [name]) ≠ none) : name ∈ tree.names root := by
  obtain ⟨entry, hentry, hloc⟩ := List.mem_map.mp (mem_of_get? (by simp) h)
  refine List.mem_filterMap.mpr ⟨entry, hentry, ?_⟩
  simp [hloc]

theorem mem_names_iff : name ∈ tree.names root ↔ tree.get? (root ++ [name]) ≠ none := by
  refine ⟨fun h => get?_of_mem ?_, mem_names_of_get?⟩
  obtain ⟨⟨loc, node⟩, hentry, hname⟩ := List.mem_filterMap.mp h
  refine List.mem_map.mpr ⟨(loc, node), hentry, ?_⟩
  simp only at hname
  split at hname
  · rename_i hroot
    obtain ⟨front, hlast⟩ := List.getLast?_eq_some_iff.mp hname
    rw [← hroot, hlast, List.dropLast_concat]
  · cases hname

/-- A directory without names has nothing in it. -/
theorem get?_of_names_eq_nil (h : tree.names root = []) (name : String) :
    tree.get? (root ++ [name]) = none := by
  refine Classical.byContradiction fun hsome => ?_
  have hmem := mem_names_of_get? hsome
  rw [h] at hmem
  cases hmem

/-! ## Ways -/

/-- A name that is looked up. -/
def IsStep (step : String) : Prop :=
  step ≠ "." ∧ step ≠ ".." ∧ step.utf8ByteSize ≤ nameLimit

def IsLink (node : Node) : Prop :=
  ∃ target, node = .link target

/-- The place from which the target of a link is followed. -/
def linkStart (here : Location) (target : String) : Location :=
  if Path.isAbsolute target then [] else here

/-- With so many links to spare, the steps lead from one location to another. -/
inductive Reaches (tree : FileTree) : Nat → Location → List String → Location → Prop where
  | here {n : Nat} {here : Location} : Reaches tree n here [] here
  | stay {n : Nat} {here loc : Location} {rest : List String} :
    tree.isDirectoryAt here = true → Reaches tree n here rest loc →
      Reaches tree n here ("." :: rest) loc
  | up {n : Nat} {here loc : Location} {rest : List String} :
    tree.isDirectoryAt here = true → Reaches tree n here.dropLast rest loc →
      Reaches tree n here (".." :: rest) loc
  | down {n : Nat} {here loc : Location} {step : String} {rest : List String} {node : Node} :
    tree.isDirectoryAt here = true → IsStep step → tree.get? (here ++ [step]) = some node →
      ¬IsLink node → Reaches tree n (here ++ [step]) rest loc →
      Reaches tree n here (step :: rest) loc
  | link {n : Nat} {here loc : Location} {step target : String} {rest : List String} :
    tree.isDirectoryAt here = true → IsStep step →
      tree.get? (here ++ [step]) = some (.link target) →
      Reaches tree n (linkStart here target) (Path.steps target ++ rest) loc →
      Reaches tree (n + 1) here (step :: rest) loc

/-- How a walk goes on behind a link. -/
def onward (tree : FileTree) (arrival : Arrival) :
    Nat → Location → List String → Except IoError Location
  | 0 => fun _ _ => .error .tooManyLinks
  | n + 1 => walk tree arrival n

theorem walk_eq (arrival : Arrival) (n : Nat) :
    walk tree arrival n = follow tree arrival (onward tree arrival n) := by
  cases n <;> rfl

section Steps

variable {arrival : Arrival} {n : Nat} {rest : List String} {step : String}

theorem walk_nil (arrival : Arrival) (n : Nat) (here : Location) :
    walk tree arrival n here [] = .ok here := by
  rw [walk_eq, follow]

theorem walk_stay (h : tree.isDirectoryAt here = true) :
    walk tree arrival n here ("." :: rest) = walk tree arrival n here rest := by
  rw [walk_eq, follow]
  simp [h]

theorem walk_up (h : tree.isDirectoryAt here = true) :
    walk tree arrival n here (".." :: rest) = walk tree arrival n here.dropLast rest := by
  rw [walk_eq, follow]
  simp [h]

theorem walk_step (h : tree.isDirectoryAt here = true) (hstep : IsStep step) :
    walk tree arrival n here (step :: rest) =
      match tree.get? (here ++ [step]) with
      | none =>
        if rest.isEmpty && arrival != .existing then .ok (here ++ [step]) else .error .notFound
      | some (.link target) =>
        if rest.isEmpty && arrival == .entry then .ok (here ++ [step])
        else onward tree arrival n (linkStart here target) (Path.steps target ++ rest)
      | some _ => walk tree arrival n (here ++ [step]) rest := by
  obtain ⟨hhere, hparent, hsize⟩ := hstep
  rw [walk_eq, follow]
  simp only [h, Bool.not_true, Bool.false_eq_true, if_false, hhere, hparent, Nat.not_lt.mpr hsize]
  rfl

theorem walk_down (h : tree.isDirectoryAt here = true) (hstep : IsStep step) {node : Node}
    (hnode : tree.get? (here ++ [step]) = some node) (hlink : ¬IsLink node) :
    walk tree arrival n here (step :: rest) = walk tree arrival n (here ++ [step]) rest := by
  rw [walk_step h hstep, hnode]
  cases node with
  | link target => exact absurd ⟨target, rfl⟩ hlink
  | _ => rfl

theorem walk_link (h : tree.isDirectoryAt here = true) (hstep : IsStep step) {target : String}
    (hnode : tree.get? (here ++ [step]) = some (.link target))
    (hgoes : (rest.isEmpty && arrival == .entry) = false) :
    walk tree arrival (n + 1) here (step :: rest) =
      walk tree arrival n (linkStart here target) (Path.steps target ++ rest) := by
  rw [walk_step h hstep, hnode]
  simp only [hgoes, Bool.false_eq_true, if_false]
  rfl

end Steps

/-- Where a walk ends, there is a way to in every tree that has all that its own has, unless the
walk stopped at a link. -/
theorem reaches_of_walk {after : FileTree} {arrival : Arrival} {n : Nat}
    (hextends : Extends tree after)
    (hend : arrival = .existing ∨ ∃ node, after.get? loc = some node ∧ ¬IsLink node)
    (honward : ∀ here steps, onward tree arrival n here steps = .ok loc →
      ∃ m, n = m + 1 ∧ Reaches after m here steps loc) {steps : List String}
    (h : walk tree arrival n here steps = .ok loc) : Reaches after n here steps loc := by
  induction steps generalizing here with
  | nil =>
    rw [walk_nil] at h
    cases h
    exact .here
  | cons step rest ih =>
    by_cases hdir : tree.isDirectoryAt here = true
    · have hdir' := hextends.isDirectoryAt hdir
      by_cases hhere : step = "."
      · subst hhere
        rw [walk_stay hdir] at h
        exact .stay hdir' (ih h)
      by_cases hparent : step = ".."
      · subst hparent
        rw [walk_up hdir] at h
        exact .up hdir' (ih h)
      by_cases hsize : step.utf8ByteSize ≤ nameLimit
      · have hstep : IsStep step := ⟨hhere, hparent, hsize⟩
        rw [walk_step hdir hstep] at h
        split at h
        · -- Nothing stood at the last step, so the walk did not ask for it to be there.
          split at h
          · rename_i hlast
            cases h
            rcases hend with rfl | ⟨node, hnode, hlink⟩
            · simp at hlast
            · obtain rfl : rest = [] := by simpa using (Bool.and_eq_true_iff.mp hlast).1
              exact .down hdir' hstep hnode hlink .here
          · cases h
        · rename_i target hnode
          split at h
          · rename_i hlast
            cases h
            rcases hend with rfl | ⟨node, hother, hlink⟩
            · simp at hlast
            · rw [hextends _ _ hnode] at hother
              cases hother
              exact absurd ⟨target, rfl⟩ hlink
          · obtain ⟨m, rfl, hreaches⟩ := honward _ _ h
            exact .link hdir' hstep (hextends _ _ hnode) hreaches
        · rename_i node hlink hnode
          have hother : ¬IsLink node := fun ⟨target, heq⟩ => hlink target heq
          exact .down hdir' hstep (hextends _ _ hnode) hother (ih h)
      · rw [walk_eq, follow] at h
        simp [hdir, hhere, hparent, Nat.not_le.mp hsize] at h
    · rw [walk_eq, follow] at h
      simp [hdir] at h

theorem Reaches.of_walk {after : FileTree} {arrival : Arrival} {n : Nat} {steps : List String}
    (hextends : Extends tree after)
    (hend : arrival = .existing ∨ ∃ node, after.get? loc = some node ∧ ¬IsLink node)
    (h : walk tree arrival n here steps = .ok loc) : Reaches after n here steps loc := by
  induction n generalizing here steps with
  | zero => exact reaches_of_walk hextends hend (fun _ _ h => (by cases h)) h
  | succ n ih => exact reaches_of_walk hextends hend (fun _ _ h => ⟨n, rfl, ih h⟩) h

/-- A walk that follows every link and finds something at its end is a way there. -/
theorem walk_existing_iff {n : Nat} {steps : List String} :
    walk tree .existing n here steps = .ok loc ↔ Reaches tree n here steps loc := by
  constructor
  · exact Reaches.of_walk (Extends.refl tree) (Or.inl rfl)
  · intro h
    induction h with
    | here => exact walk_nil _ _ _
    | stay hdir _ ih => rw [walk_stay hdir, ih]
    | up hdir _ ih => rw [walk_up hdir, ih]
    | down hdir hstep hnode hlink _ ih => rw [walk_down hdir hstep hnode hlink, ih]
    | link hdir hstep hnode _ ih => rw [walk_link hdir hstep hnode (by simp), ih]

theorem Reaches.extends {after : FileTree} {n : Nat} {steps : List String}
    (hextends : Extends tree after) (h : Reaches tree n here steps loc) :
    Reaches after n here steps loc :=
  .of_walk hextends (Or.inl rfl) (walk_existing_iff.mpr h)

/-- Behind a way, a walk goes on from where it leads. -/
theorem Reaches.walk_append {n : Nat} {steps : List String} (h : Reaches tree n here steps loc) :
    ∃ m, ∀ (arrival : Arrival) {rest : List String}, rest ≠ [] →
      walk tree arrival n here (steps ++ rest) = walk tree arrival m loc rest := by
  induction h with
  | @here n here => exact ⟨n, fun _ _ _ => rfl⟩
  | stay hdir _ ih =>
    obtain ⟨m, hm⟩ := ih
    exact ⟨m, fun arrival _ hrest => by rw [List.cons_append, walk_stay hdir, hm arrival hrest]⟩
  | up hdir _ ih =>
    obtain ⟨m, hm⟩ := ih
    exact ⟨m, fun arrival _ hrest => by rw [List.cons_append, walk_up hdir, hm arrival hrest]⟩
  | down hdir hstep hnode hlink _ ih =>
    obtain ⟨m, hm⟩ := ih
    exact ⟨m, fun arrival _ hrest => by
      rw [List.cons_append, walk_down hdir hstep hnode hlink, hm arrival hrest]⟩
  | link hdir hstep hnode _ ih =>
    obtain ⟨m, hm⟩ := ih
    refine ⟨m, fun arrival rest hrest => ?_⟩
    rw [List.cons_append, walk_link hdir hstep hnode (by simp [hrest]), ← List.append_assoc,
      hm arrival hrest]

/-- The way to a directory is one without a step in place at its end, too. -/
theorem Reaches.of_append_stay {n : Nat} {steps : List String}
    (h : Reaches tree n here (steps ++ ["."]) loc) : Reaches tree n here steps loc := by
  generalize hall : steps ++ ["."] = all at h
  induction h generalizing steps with
  | here => simp at hall
  | stay hdir hrest ih =>
    cases steps with
    | nil =>
      obtain rfl : [] = _ := by simpa using hall
      exact hrest
    | cons step steps =>
      obtain ⟨rfl, rfl⟩ := List.cons.inj hall
      exact .stay hdir (ih rfl)
  | up hdir _ ih =>
    cases steps with
    | nil => simp at hall
    | cons step steps =>
      obtain ⟨rfl, rfl⟩ := List.cons.inj hall
      exact .up hdir (ih rfl)
  | down hdir hstep hnode hlink _ ih =>
    cases steps with
    | nil =>
      obtain ⟨rfl, -⟩ := List.cons.inj hall
      exact absurd rfl hstep.1
    | cons step steps =>
      obtain ⟨rfl, rfl⟩ := List.cons.inj hall
      exact .down hdir hstep hnode hlink (ih rfl)
  | link hdir hstep hnode _ ih =>
    cases steps with
    | nil =>
      obtain ⟨rfl, -⟩ := List.cons.inj hall
      exact absurd rfl hstep.1
    | cons step steps =>
      obtain ⟨rfl, rfl⟩ := List.cons.inj hall
      exact .link hdir hstep hnode (ih (List.append_assoc _ _ _))

/-- Steps of which some that stay in place were left out. -/
inductive Thinned : List String → List String → Prop where
  | nil : Thinned [] []
  | keep {steps fewer : List String} (step : String) :
    Thinned steps fewer → Thinned (step :: steps) (step :: fewer)
  | drop {steps fewer : List String} : Thinned steps fewer → Thinned ("." :: steps) fewer

theorem Thinned.append_left {steps fewer : List String} (h : Thinned steps fewer) :
    ∀ front : List String, Thinned (front ++ steps) (front ++ fewer)
  | [] => h
  | step :: front => .keep step (h.append_left front)

theorem Thinned.cons_cases {step : String} {steps fewer : List String}
    (h : Thinned (step :: steps) fewer) :
    (∃ rest, fewer = step :: rest ∧ Thinned steps rest) ∨ step = "." ∧ Thinned steps fewer := by
  cases h with
  | keep _ hrest => exact Or.inl ⟨_, rfl, hrest⟩
  | drop hrest => exact Or.inr ⟨rfl, hrest⟩

theorem thinned_filter (steps : List String) : Thinned steps (steps.filter (· ≠ ".")) := by
  induction steps with
  | nil => exact .nil
  | cons step steps ih =>
    by_cases h : step = "."
    · subst h
      exact .drop ih
    · rw [List.filter_cons_of_pos (by simpa using h)]
      exact .keep step ih

theorem Reaches.thinned {n : Nat} {steps fewer : List String} (h : Reaches tree n here steps loc)
    (hfewer : Thinned steps fewer) : Reaches tree n here fewer loc := by
  induction h generalizing fewer with
  | here =>
    cases hfewer
    exact .here
  | stay hdir _ ih =>
    rcases hfewer.cons_cases with ⟨_, rfl, hrest⟩ | ⟨-, hrest⟩
    · exact .stay hdir (ih hrest)
    · exact ih hrest
  | up hdir _ ih =>
    rcases hfewer.cons_cases with ⟨_, rfl, hrest⟩ | ⟨habsurd, -⟩
    · exact .up hdir (ih hrest)
    · exact absurd habsurd (by decide)
  | down hdir hstep hnode hlink _ ih =>
    rcases hfewer.cons_cases with ⟨_, rfl, hrest⟩ | ⟨rfl, -⟩
    · exact .down hdir hstep hnode hlink (ih hrest)
    · exact absurd rfl hstep.1
  | link hdir hstep hnode _ ih =>
    rcases hfewer.cons_cases with ⟨_, rfl, hrest⟩ | ⟨rfl, -⟩
    · exact .link hdir hstep hnode (ih (hrest.append_left _))
    · exact absurd rfl hstep.1

/-- Where a link at the end is not followed, the walk ends at the same place or at that link. -/
theorem Reaches.walk_entry {n : Nat} {steps : List String} (h : Reaches tree n here steps loc) :
    ∃ place, walk tree .entry n here steps = .ok place ∧
      (place = loc ∨ tree.get? place ≠ none) := by
  induction h with
  | here => exact ⟨_, walk_nil _ _ _, Or.inl rfl⟩
  | stay hdir _ ih => rwa [walk_stay hdir]
  | up hdir _ ih => rwa [walk_up hdir]
  | down hdir hstep hnode hlink _ ih => rwa [walk_down hdir hstep hnode hlink]
  | @link n here _ step target rest hdir hstep hnode _ ih =>
    cases rest with
    | nil =>
      refine ⟨here ++ [step], ?_, Or.inr (by simp [hnode])⟩
      rw [walk_step hdir hstep, hnode]
      rfl
    | cons next rest => rwa [walk_link hdir hstep hnode (by simp)]

/-- A way to a directory stays one when the tree changes at a place that no way goes through. -/
theorem Reaches.of_agree {tree' : FileTree} {place : Location} {n : Nat} {steps : List String}
    (h : Reaches tree n here steps loc) (hloc : tree.isDirectoryAt loc = true)
    (hplace : tree.isDirectoryAt place = false)
    (hlink : ∀ target, tree.get? place ≠ some (.link target))
    (hagree : ∀ other, other ≠ place → tree'.get? other = tree.get? other) :
    Reaches tree' n here steps loc := by
  have hdirs : ∀ other, tree.isDirectoryAt other = true → tree'.isDirectoryAt other = true := by
    intro other hother
    have hne : other ≠ place := by
      rintro rfl
      rw [hplace] at hother
      cases hother
    rw [isDirectoryAt_iff] at hother ⊢
    rwa [hagree other hne]
  induction h with
  | here => exact .here
  | stay hdir _ ih => exact .stay (hdirs _ hdir) (ih hloc)
  | up hdir _ ih => exact .up (hdirs _ hdir) (ih hloc)
  | @down n here loc step rest node hdir hstep hnode hplain hrest ih =>
    have hne : here ++ [step] ≠ place := by
      rintro rfl
      cases hrest with
      | here => rw [hplace] at hloc; cases hloc
      | stay hdir _ => rw [hplace] at hdir; cases hdir
      | up hdir _ => rw [hplace] at hdir; cases hdir
      | down hdir => rw [hplace] at hdir; cases hdir
      | link hdir => rw [hplace] at hdir; cases hdir
    exact .down (hdirs _ hdir) hstep (by rw [hagree _ hne, hnode]) hplain (ih hloc)
  | @link n here loc step target rest hdir hstep hnode _ ih =>
    have hne : here ++ [step] ≠ place := by
      rintro rfl
      exact hlink target hnode
    exact .link (hdirs _ hdir) hstep (by rw [hagree _ hne, hnode]) (ih hloc)

end Agentry.FileTree
