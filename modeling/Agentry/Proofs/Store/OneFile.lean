import Agentry.Proofs.Store.Owners
import Mathlib.Data.List.Induction
/-!
# One file per agent

In a directory that writes filled, every file is an artifact, and the places that a write would have
tried before it are taken. So a write finds the file of its agent, and never makes a second one;
only a write that overwrites another agent's file does not look further.
-/
namespace Agentry.Store

open Artifact (fileNameOf)

/-- A place that some agent owns. -/
def Taken (slot : Slot) : Prop := ∃ name, slot = .owned name

/-- A directory of artifacts, none of which could have gone to an earlier place. -/
structure Stocked (directory : String) (root : Location) (tree : FileTree) : Prop where
  artifact : ∀ slug, tree.get? (root ++ [fileNameOf slug]) ≠ none →
    Taken (slotAt directory tree root slug)
  valid : ∀ slug, Taken (slotAt directory tree root slug) → Slug.Valid slug.toList
  packed : ∀ slug name, slotAt directory tree root slug = .owned name →
    ∃ k, slug = candidate (slugify name) k ∧
      ∀ j < k, Taken (slotAt directory tree root (candidate (slugify name) j))

/-- No two artifacts of a directory have one name. -/
def OneFilePerAgent (root : Location) (tree : FileTree) : Prop :=
  ∀ slug slug' text text', tree.entryText root (fileNameOf slug) = .ok text →
    tree.entryText root (fileNameOf slug') = .ok text' →
    (Artifact.parse text).spec.name = (Artifact.parse text').spec.name → slug = slug'

/-- An agent that some artifact of a directory has the name of. -/
def Filed (root : Location) (tree : FileTree) (name : String) : Prop :=
  ∃ slug text, tree.entryText root (fileNameOf slug) = .ok text ∧
    (Artifact.parse text).spec.name = name

variable {store : Store} {spec : AgentSpec} {directory name slug : String} {root : Location}
  {tree after : FileTree} {written : Written}

theorem Fresh.stocked {disk : Disk} (h : Fresh directory root disk) :
    Stocked directory root disk.tree where
  artifact _ hentry := absurd (h.get?_eq_none _) hentry
  valid slug htaken := by
    obtain ⟨name, howned⟩ := htaken
    exact absurd howned (h.not_owned slug name)
  packed slug name howned := absurd howned (h.not_owned slug name)

theorem Stores.taken (hlinkless : tree.Linkless root)
    (h : Stores store spec root tree written after)
    (htaken : Taken (slotAt store.directory tree root slug)) :
    Taken (slotAt store.directory after root slug) := by
  rw [h.slotAt_eq hlinkless]
  split
  · exact ⟨_, rfl⟩
  · exact htaken

theorem Blocked.taken {slot : Slot} (h : Blocked name slot) : Taken slot := by
  obtain ⟨other, hother, -⟩ := h
  exact ⟨other, hother⟩

theorem Stocked.step (hlinkless : tree.Linkless root)
    (hstores : Stores store spec root tree written after)
    (h : Stocked store.directory root tree) : Stocked store.directory root after where
  artifact slug hentry := by
    by_cases hslug : slug = written.slug
    · rw [hstores.slotAt_eq hlinkless, if_pos hslug]
      exact ⟨_, rfl⟩
    · rw [hstores.get?_eq (mt Artifact.fileNameOf_inj.mp hslug)] at hentry
      exact hstores.taken hlinkless (h.artifact slug hentry)
  valid slug htaken := by
    rw [hstores.slotAt_eq hlinkless] at htaken
    split at htaken
    · rename_i hslug
      rw [hslug]
      exact hstores.valid
    · exact h.valid slug htaken
  packed slug name howned := by
    rw [hstores.slotAt_eq hlinkless] at howned
    split at howned
    · rename_i hslug
      obtain rfl : spec.name = name := Slot.owned.inj howned
      obtain ⟨outcome, hplaced, -⟩ := hstores.placed
      obtain ⟨k, hk, -, hblocked⟩ := hplaced.exists_candidate
      exact ⟨k, hslug.trans hk, fun j hj => hstores.taken hlinkless (hblocked j hj).taken⟩
    · obtain ⟨k, hk, htaken⟩ := h.packed slug name howned
      exact ⟨k, hk, fun j hj => hstores.taken hlinkless (htaken j hj)⟩

/-! ## Artifacts and owned places -/

theorem Stocked.owned_iff (h : Stocked directory root tree) :
    slotAt directory tree root slug = .owned name ↔
      ∃ text, tree.entryText root (fileNameOf slug) = .ok text ∧
        (Artifact.parse text).spec.name = name := by
  have hread : ∀ text, slotText directory tree root slug = .ok text →
      tree.entryText root (fileNameOf slug) = .ok text := by
    intro text htext
    rwa [slotText, if_pos (slotText_eq_ok htext).1] at htext
  constructor
  · intro howned
    obtain ⟨text, htext, hname⟩ := slotAt_eq_owned howned
    exact ⟨text, hread text htext, hname⟩
  · rintro ⟨text, htext, hname⟩
    have hentry : tree.get? (root ++ [fileNameOf slug]) ≠ none := by
      intro hnone
      rw [FileTree.entryText, hnone] at htext
      cases htext
    obtain ⟨other, howned⟩ := h.artifact slug hentry
    obtain ⟨text', htext', hother⟩ := slotAt_eq_owned howned
    have heq := hread text' htext'
    rw [htext] at heq
    cases heq
    rw [howned, ← hother, hname]

theorem Stocked.filed_iff (h : Stocked directory root tree) :
    Filed root tree name ↔ ∃ slug, slotAt directory tree root slug = .owned name := by
  simp only [Filed, h.owned_iff]

theorem Stocked.oneFilePerAgent_iff (h : Stocked directory root tree) :
    OneFilePerAgent root tree ↔ ∀ name slug slug',
      slotAt directory tree root slug = .owned name →
        slotAt directory tree root slug' = .owned name → slug = slug' := by
  constructor
  · intro hone name slug slug' howned howned'
    obtain ⟨text, htext, rfl⟩ := h.owned_iff.mp howned
    obtain ⟨text', htext', hname⟩ := h.owned_iff.mp howned'
    exact hone slug slug' text text' htext htext' hname.symm
  · intro hone slug slug' text text' htext htext' hname
    exact hone _ slug slug' (h.owned_iff.mpr ⟨text, htext, hname⟩)
      (h.owned_iff.mpr ⟨text', htext', rfl⟩)

/-! ## One write -/

theorem Stocked.not_owned_of_free (h : Stocked directory root tree) {k : Nat}
    (hblocked : ∀ j < k, Blocked name (slotAt directory tree root (candidate (slugify name) j)))
    (hfree : slotAt directory tree root (candidate (slugify name) k) = .free) :
    slotAt directory tree root slug ≠ .owned name := by
  intro howned
  obtain ⟨i, rfl, htaken⟩ := h.packed slug name howned
  -- A place of its own below `k` is not blocked, and one above has `k` taken.
  rcases Nat.lt_trichotomy i k with hlt | rfl | hlt
  · obtain ⟨other, hother, hne⟩ := hblocked i hlt
    rw [howned] at hother
    exact hne (Slot.owned.inj hother).symm
  · rw [hfree] at howned
    cases howned
  · obtain ⟨other, hother⟩ := htaken k hlt
    rw [hfree] at hother
    cases hother

/-- A place that an agent had before a write is the one that the write went to, unless the write
overwrote another agent's file. -/
theorem Stores.slug_eq_of_owned (hstocked : Stocked store.directory root tree)
    (hone : OneFilePerAgent root tree) (hstores : Stores store spec root tree written after)
    (houtcome : written.outcome ≠ .overwrote)
    (howned : slotAt store.directory tree root slug = .owned spec.name) : slug = written.slug := by
  obtain ⟨outcome, hplaced, hoverwrote⟩ := hstores.placed
  obtain ⟨k, hslug, -, hblocked⟩ := hplaced.exists_candidate
  rcases hplaced.finds_or_blocked with hfinds | ⟨-, -, houtcome', -⟩
  · generalize hslot : slotAt store.directory tree root written.slug = slot at hfinds
    cases hfinds with
    | created =>
      rw [hslug] at hslot
      exact absurd howned (hstocked.not_owned_of_free hblocked hslot)
    | updated => exact hstocked.oneFilePerAgent_iff.mp hone _ _ _ howned hslot
  · exact absurd (hoverwrote.mpr houtcome') houtcome

/-- A write keeps to one file per agent unless it overwrites a file with that of an agent that has
another one already. -/
theorem Stores.oneFilePerAgent_iff (hlinkless : tree.Linkless root)
    (hstocked : Stocked store.directory root tree) (hone : OneFilePerAgent root tree)
    (hstores : Stores store spec root tree written after) :
    OneFilePerAgent root after ↔ ¬(written.outcome = .overwrote ∧ Filed root tree spec.name) := by
  have hafter := hstores.slotAt_eq hlinkless
  rw [(hstocked.step hlinkless hstores).oneFilePerAgent_iff, hstocked.filed_iff]
  constructor
  · rintro hone' ⟨houtcome, slug, howned⟩
    obtain ⟨outcome, hplaced, hoverwrote⟩ := hstores.placed
    obtain ⟨-, -, other, hother, hne⟩ := hplaced.overwrote_cases (hoverwrote.mp houtcome)
    have hslug : slug ≠ written.slug := by
      rintro rfl
      rw [howned] at hother
      exact hne (Slot.owned.inj hother).symm
    refine hslug (hone' spec.name slug written.slug ?_ ?_)
    · rw [hafter, if_neg hslug, howned]
    · rw [hafter, if_pos rfl]
  · intro hnot
    -- The agent's own place is the one that was written, so the other places keep their owners
    -- apart.
    have hown : ∀ slug, slotAt store.directory tree root slug = .owned spec.name →
        slug = written.slug := by
      intro slug howned
      exact hstores.slug_eq_of_owned hstocked hone (fun houtcome => hnot ⟨houtcome, slug, howned⟩)
        howned
    intro name slug slug' howned howned'
    rw [hafter] at howned howned'
    split at howned
    · rename_i hslug
      split at howned'
      · rename_i hslug'
        rw [hslug, hslug']
      · obtain rfl : spec.name = name := Slot.owned.inj howned
        rw [hslug, hown slug' howned']
    · split at howned'
      · rename_i hslug'
        obtain rfl : spec.name = name := Slot.owned.inj howned'
        rw [hslug', hown slug howned]
      · exact hstocked.oneFilePerAgent_iff.mp hone name slug slug' howned howned'

/-- A write after which an agent has two files. -/
def Doubles (store : Store) (spec : AgentSpec) (root : Location) (bench : Workbench) : Prop :=
  ∃ written, (store.write spec bench).1 = .ok written ∧ written.outcome = .overwrote ∧
    Filed root bench.disk.tree spec.name

theorem write_oneFilePerAgent_iff {bench : Workbench}
    (hready : Ready store.directory root bench.disk)
    (hstocked : Stocked store.directory root bench.disk.tree)
    (hone : OneFilePerAgent root bench.disk.tree) :
    OneFilePerAgent root (store.write spec bench).2.disk.tree ↔ ¬Doubles store spec root bench := by
  rcases write_cases store spec bench hready with
    ⟨cause, after, hwrite, hkept, -⟩ | ⟨written, tree, after, hwrite, hstores, hkept⟩
  · have hnot : ¬Doubles store spec root bench := by
      rintro ⟨written, hok, -⟩
      rw [hwrite] at hok
      cases hok
    simpa [hwrite, hkept.tree, hone] using hnot
  · rw [hwrite, hkept.tree, hstores.oneFilePerAgent_iff hready.linkless hstocked hone, Doubles,
      hwrite]
    simp

/-! ## Write after write -/

theorem writeAll_stocked (bench : Workbench) (hfresh : Fresh directory root bench.disk)
    (requests : List WriteRequest) :
    Ready directory root (writeAll directory requests bench).2.disk ∧
      Stocked directory root (writeAll directory requests bench).2.disk.tree := by
  obtain ⟨hready, hstocked⟩ := writeAll_keeps (P := fun _ tree => Stocked directory root tree)
    (fun request _ _ _ _ _ hlinkless hstocked hstores => hstocked.step hlinkless hstores)
    hfresh.ready [] hfresh.stocked
  exact ⟨hready, hstocked⟩

/-- There is one file per agent all along a run of writes exactly if no write of the run overwrites
another agent's file for an agent that has a file already. -/
theorem writeAll_oneFilePerAgent_iff (bench : Workbench) (hfresh : Fresh directory root bench.disk)
    (requests : List WriteRequest) :
    (∀ done, done <+: requests → OneFilePerAgent root (writeAll directory done bench).2.disk.tree) ↔
      ∀ done request, done ++ [request] <+: requests →
        ¬Doubles ⟨directory, request.policy⟩ request.spec root
          (writeAll directory done bench).2 := by
  have hstep : ∀ done request, OneFilePerAgent root (writeAll directory done bench).2.disk.tree →
      (OneFilePerAgent root (writeAll directory (done ++ [request]) bench).2.disk.tree ↔
        ¬Doubles ⟨directory, request.policy⟩ request.spec root
          (writeAll directory done bench).2) := by
    intro done request hone
    obtain ⟨hready, hstocked⟩ := writeAll_stocked bench hfresh done
    rw [writeAll_append, writeAll_singleton]
    exact write_oneFilePerAgent_iff hready hstocked hone
  constructor
  · intro hone done request hprefix
    have hdone : done <+: requests := (List.prefix_append done [request]).trans hprefix
    exact (hstep done request (hone done hdone)).mp (hone _ hprefix)
  · intro hnot done
    induction done using List.reverseRecOn with
    | nil =>
      intro _
      exact fun slug _ text _ htext => absurd (hfresh.stocked.owned_iff.mpr ⟨text, htext, rfl⟩)
        (hfresh.not_owned slug _)
    | append_singleton done request ih =>
      intro hprefix
      have hone := ih ((List.prefix_append done [request]).trans hprefix)
      exact (hstep done request hone).mpr (hnot done request hprefix)

/-- Two agents of one slug, the second of which is then written over the first. -/
def rivalBots : List WriteRequest :=
  let bot (name : String) : AgentSpec := ⟨name, "A bot", "1.0.0", "Trade.", [], .empty, .empty⟩
  [⟨.suffix, bot "Stock Bot"⟩, ⟨.suffix, bot "stock bot"⟩, ⟨.overwrite, bot "stock bot"⟩]

theorem goes_rivalBots : Goes "agents" [] rivalBots ["stock-bot", "stock-bot-2", "stock-bot"]
    [("stock-bot", "stock bot"), ("stock-bot-2", "stock bot"), ("stock-bot", "Stock Bot")] := by
  refine .cons .created ?_ (placed_found 0 (Or.inl rfl) ?_ ?_ (.of_free ?_)) <|
    .cons .created ?_ (placed_found 1 (by decide) ?_ ?_ (.of_free ?_)) <|
    .cons .overwrote ?_ (placed_overwrote ?_ ?_) <| .nil _
  all_goals first
    | exact Artifact.exists_renderAs rfl (by decide +kernel) (by decide +kernel)
    | decide +kernel

theorem two_files_rivalBots :
    ¬OneFilePerAgent ["agents"] (writeAll "agents" rivalBots ⟨emptyAgents, []⟩).2.disk.tree := by
  intro hone
  obtain ⟨-, hholds⟩ :=
    Holds.writeAll ⟨emptyAgents, []⟩ (fresh_emptyAgents.holds rfl) goes_rivalBots
  obtain ⟨-, hstocked⟩ := writeAll_stocked ⟨emptyAgents, []⟩ fresh_emptyAgents rivalBots
  have hunique := hstocked.oneFilePerAgent_iff.mp hone "stock bot" "stock-bot" "stock-bot-2"
  rw [hholds.slots] at hunique
  exact absurd (hunique (by decide +kernel) (by decide +kernel)) (by decide)

/-- A run after which one agent has two files. -/
theorem not_oneFilePerAgent_rivalBots : Fresh "agents" ["agents"] emptyAgents ∧
    ¬OneFilePerAgent ["agents"] (writeAll "agents" rivalBots ⟨emptyAgents, []⟩).2.disk.tree :=
  ⟨fresh_emptyAgents, two_files_rivalBots⟩

theorem writeAll_oneFilePerAgent_iff_rivalBots :
    ¬∀ done request, done ++ [request] <+: rivalBots →
      ¬Doubles ⟨"agents", request.policy⟩ request.spec ["agents"]
        (writeAll "agents" done ⟨emptyAgents, []⟩).2 := by
  intro hnot
  have hone := (writeAll_oneFilePerAgent_iff ⟨emptyAgents, []⟩ fresh_emptyAgents rivalBots).mpr hnot
  exact two_files_rivalBots (hone rivalBots (List.prefix_refl _))

end Agentry.Store
