import Agentry.Proofs.Store.Failure
import Agentry.Proofs.Store.Owners
/-!
# What a write changes

A write that succeeds changes the file at the path that it returns and nothing else. The outcome
that it reports tells what stood there before, as far as the text of that file told.
-/
namespace Agentry.Store

open Artifact (fileNameOf)

/-- A file that reads back to the name of an agent. -/
def Named (tree : FileTree) (root : Location) (file name : String) : Prop :=
  ∃ text, tree.entryText root file = .ok text ∧ (Artifact.parse text).spec.name = name

/-- What an outcome says about the file of a slug before and after a write. -/
def Accounts (store : Store) (spec : AgentSpec) (slug : String) (root : Location)
    (before after : FileTree) : WriteOutcome → Prop
  | .created => before.get? (root ++ [fileNameOf slug]) = none
  | .updated => Named before root (fileNameOf slug) spec.name ∧
      after.get? (root ++ [fileNameOf slug]) ≠ before.get? (root ++ [fileNameOf slug])
  | .unchanged => Named before root (fileNameOf slug) spec.name ∧
      after.get? (root ++ [fileNameOf slug]) = before.get? (root ++ [fileNameOf slug])
  | .overwrote => (∃ other, Named before root (fileNameOf slug) other ∧ other ≠ spec.name) ∧
      store.policy = .overwrite ∧ slug = slugify spec.name

variable {store : Store} {spec : AgentSpec} {bench last : Workbench} {root : Location}
  {tree after : FileTree} {directory slug file name other : String} {written : Written}

theorem Named.unique (h : Named tree root file name) (h' : Named tree root file other) :
    name = other := by
  obtain ⟨text, htext, rfl⟩ := h
  obtain ⟨text', htext', rfl⟩ := h'
  rw [htext] at htext'
  cases htext'
  rfl

theorem named_of_owned (h : slotAt directory tree root slug = .owned name) :
    Named tree root (fileNameOf slug) name := by
  obtain ⟨text, htext, hname⟩ := slotAt_eq_owned h
  exact ⟨text, (slotText_eq_ok_iff.mp htext).2, hname⟩

theorem Placed.free_of_created {policy : CollisionPolicy} {slots : String → Slot}
    (h : Placed policy name slots slug .created) : slots slug = .free := by
  rcases h.finds_or_blocked with hfinds | ⟨-, -, houtcome, -⟩
  · generalize slots slug = slot at hfinds ⊢
    cases hfinds
    rfl
  · cases houtcome

theorem Stores.accounts (hlinkless : tree.Linkless root)
    (h : Stores store spec root tree written after) :
    Accounts store spec written.slug root tree after written.outcome := by
  obtain ⟨b, hb, hplace⟩ := h.get?_place
  cases h with
  | unchanged a _ _ hplaced => exact ⟨named_of_owned hplaced.owned_of_updated, rfl⟩
  | replaced a outcome _ hrender hplaced hdiffers =>
    cases outcome with
    | created =>
      exact (slotText_eq_notFound hlinkless (slotAt_eq_free hplaced.free_of_created)).2
    | updated =>
      refine ⟨named_of_owned hplaced.owned_of_updated, fun hsame => hdiffers rfl ?_⟩
      obtain rfl : b = a := by
        rw [hb] at hrender
        exact Except.ok.inj hrender
      rw [hplace] at hsame
      exact slotText_eq_ok_iff.mpr
        ⟨(hplaced.open hlinkless).1, FileTree.entryText_eq_ok_iff.mpr ⟨_, hsame.symm⟩⟩
    | unchanged => exact absurd rfl hplaced.ne_unchanged
    | overwrote =>
      obtain ⟨hpolicy, hslug, other, hother, hne⟩ := hplaced.overwrote_cases rfl
      exact ⟨⟨other, named_of_owned hother, hne⟩, hpolicy, hslug⟩

/-- No file but one of the agent itself is left as it was by a write to it. -/
theorem Stores.unchanged_iff (hlinkless : tree.Linkless root)
    (h : Stores store spec root tree written after) :
    written.outcome = .unchanged ↔ after.get? (root ++ [fileNameOf written.slug]) =
      tree.get? (root ++ [fileNameOf written.slug]) := by
  have haccounts := h.accounts hlinkless
  obtain ⟨a, ha, hplace⟩ := h.get?_place
  generalize written.outcome = outcome at haccounts ⊢
  cases outcome with
  | created =>
    rw [Accounts] at haccounts
    simp [hplace, haccounts]
  | updated => simp [haccounts.2]
  | unchanged => simp [haccounts.2]
  | overwrote =>
    simp only [reduceCtorEq, false_iff]
    intro hsame
    obtain ⟨⟨other, hother, hne⟩, -, -⟩ := haccounts
    rw [hplace] at hsame
    have hown : Named tree root (fileNameOf written.slug) spec.name :=
      ⟨a.source, FileTree.entryText_eq_ok_iff.mpr ⟨_, hsame.symm⟩,
        Artifact.parse_name_of_renderAs ha⟩
    exact hne (hother.unique hown)

/-- Only overwriting touches the file of another agent. -/
theorem Stores.get?_of_named (hlinkless : tree.Linkless root) (hpolicy : store.policy ≠ .overwrite)
    (h : Stores store spec root tree written after) (hnamed : Named tree root file other)
    (hne : other ≠ spec.name) : after.get? (root ++ [file]) = tree.get? (root ++ [file]) := by
  refine h.get?_eq ?_
  rintro rfl
  have haccounts := h.accounts hlinkless
  generalize written.outcome = outcome at haccounts
  cases outcome with
  | created =>
    obtain ⟨text, htext, -⟩ := hnamed
    obtain ⟨mode, hnode⟩ := FileTree.entryText_eq_ok_iff.mp htext
    rw [Accounts, hnode] at haccounts
    cases haccounts
  | updated => exact hne (hnamed.unique haccounts.1)
  | unchanged => exact hne (hnamed.unique haccounts.1)
  | overwrote => exact hpolicy haccounts.2.1

theorem Stores.slug_cases (h : Stores store spec root tree written after) :
    written.slug = slugify spec.name ∨
      store.policy = .suffix ∧ ∃ n ≥ 2, written.slug = numberedSlug (slugify spec.name) n := by
  obtain ⟨outcome, hplaced, -⟩ := h.placed
  obtain ⟨k, hslug, hk, -⟩ := hplaced.exists_candidate
  cases k with
  | zero => exact Or.inl hslug
  | succ k =>
    refine Or.inr ⟨(hk.resolve_left (Nat.succ_ne_zero k)).1, firstNumber + k, ?_, hslug⟩
    exact Nat.le_add_right firstNumber k

theorem Stores.locate_path {home : Location}
    (hleads : tree.directory home store.directory = .ok root) (hlinkless : tree.Linkless root)
    (h : Stores store spec root tree written after) :
    tree.locate home .entry written.path = .ok (root ++ [fileNameOf written.slug]) := by
  obtain ⟨outcome, hplaced, -⟩ := h.placed
  rw [h.path_eq, artifactPath]
  have hlocate := FileTree.locate_join hleads h.valid.isName hlinkless .entry
  simpa only [(hplaced.open hlinkless).1, reduceCtorEq, and_false, if_true, if_false] using hlocate

/-! ## The write -/

theorem write_ok (hready : Ready store.directory root bench.disk)
    (h : store.write spec bench = (.ok written, last)) :
    Stores store spec root bench.disk.tree written last.disk.tree ∧
      Disk.Kept { bench.disk with tree := last.disk.tree } last.disk := by
  rcases write_cases store spec bench hready with
    ⟨cause, _, hwrite, -⟩ | ⟨_, tree, _, hwrite, hstores, hkept⟩
  · rw [h] at hwrite
    cases hwrite
  · rw [h] at hwrite
    cases hwrite
    obtain rfl : last.disk.tree = tree := hkept.tree
    exact ⟨hstores, hkept⟩

/-- Every entry but the file at the path that a write returns is what it was, the outcome accounts
for that file, and only overwriting touches a file of another agent. -/
theorem write_changes_one_entry (hready : Ready store.directory root bench.disk)
    (h : store.write spec bench = (.ok written, last)) :
    let before := bench.disk.tree
    let after := last.disk.tree
    let place := root ++ [fileNameOf written.slug]
    written.path = store.artifactPath written.slug ∧
      before.locate bench.disk.home .entry written.path = .ok place ∧
      (∀ loc, loc ≠ place → after.get? loc = before.get? loc) ∧
      Accounts store spec written.slug root before after written.outcome ∧
      (written.outcome = .unchanged ↔ after.get? place = before.get? place) ∧
      (store.policy ≠ .overwrite → ∀ file other, Named before root file other →
        other ≠ spec.name → after.get? (root ++ [file]) = before.get? (root ++ [file])) ∧
      (written.slug = slugify spec.name ∨
        store.policy = .suffix ∧ ∃ n ≥ 2, written.slug = numberedSlug (slugify spec.name) n) := by
  obtain ⟨hstores, -⟩ := write_ok hready h
  intro before after place
  exact ⟨hstores.path_eq, hstores.locate_path hready.leads hready.linkless,
    fun loc => hstores.get?_of_ne, hstores.accounts hready.linkless,
    hstores.unchanged_iff hready.linkless,
    fun hpolicy file other => hstores.get?_of_named hready.linkless hpolicy, hstores.slug_cases⟩

/-- A directory with a file by hand in the place of the agent, and one that is no text. -/
def rivalDisk : Disk :=
  .sound ⟨[(["agents"], .directory directoryMode),
    (["agents", "stock-bot.agent.rs"], .file "name: \"Rival\"".toUTF8 0o600),
    (["agents", "notes"], .file ⟨#[0xff]⟩ 0o644)]⟩ []

theorem ready_rivalDisk : Ready "agents" ["agents"] rivalDisk where
  leads := by decide +kernel
  linkless := FileTree.linkless_of_nodes (by simp [rivalDisk, Disk.sound]) _
  honest := List.not_mem_nil

theorem exists_render_stockBot : ∃ a, stockBot.render = .ok a :=
  Artifact.exists_renderAs rfl (by decide +kernel) (by decide +kernel)

theorem placed_rivalDisk : Placed .overwrite stockBot.name
    (slotAt "agents" rivalDisk.tree ["agents"]) "stock-bot" .overwrote :=
  placed_overwrote (by decide +kernel) (by decide +kernel)

theorem write_changes_one_entry_rivalDisk : ∃ written last,
    (Store.mk "agents" .overwrite).write stockBot ⟨rivalDisk, []⟩ = (.ok written, last) ∧
      Accounts ⟨"agents", .overwrite⟩ stockBot written.slug ["agents"] rivalDisk.tree
        last.disk.tree written.outcome ∧
      written.outcome = .overwrote ∧ written.slug = "stock-bot" ∧
      last.disk.tree.get? ["agents", "notes"] = some (.file ⟨#[0xff]⟩ 0o644) := by
  obtain ⟨a, ha⟩ := exists_render_stockBot
  obtain ⟨written, _, last, hwrite, hstores, -⟩ :=
    write_of_placed ⟨"agents", .overwrite⟩ ⟨rivalDisk, []⟩ ready_rivalDisk rfl ha placed_rivalDisk
  obtain ⟨outcome, hplaced, hoverwrote⟩ := hstores.placed
  obtain ⟨hslug, houtcome⟩ := hplaced.unique placed_rivalDisk
  obtain ⟨-, -, hothers, haccounts, -⟩ := write_changes_one_entry ready_rivalDisk hwrite
  refine ⟨written, last, hwrite, haccounts, hoverwrote.mpr houtcome, hslug, ?_⟩
  rw [hothers _ (by rw [hslug]; decide)]
  rfl

end Agentry.Store
