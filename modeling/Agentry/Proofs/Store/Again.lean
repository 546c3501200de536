import Agentry.Proofs.Artifact.Canonical
import Agentry.Proofs.Store.Failure
/-!
# Writing what was read back

Nothing is assumed here of the tree that a write finds: its store may be missing, and links may lead
to it and to its entries. As long as no fault reports that a file is missing, the text that a write
left at its path is the text of its spec, the places before that path belong to other agents as they
did, and the spec that the text reads back to goes to that path again and changes nothing.
-/
namespace Agentry

namespace Workbench

variable {α : Type} {bench after : Workbench} {operation : Disk → Except IoError α × Disk} {a : α}

theorem doing_ok (h : bench.doing operation = (.ok a, after)) :
    operation bench.disk = (.ok a, after.disk) := by
  rw [doing] at h
  generalize operation bench.disk = result at h
  obtain ⟨answer, disk⟩ := result
  cases answer with
  | ok b =>
    cases h
    rfl
  | error fault => cases h

theorem doing_look_ok {truth : Except IoError α}
    (hlook : operation bench.disk = bench.disk.look truth)
    (h : bench.doing operation = (.ok a, after)) : truth = .ok a ∧ bench.disk.Kept after.disk := by
  obtain ⟨htells, hkept⟩ := bench.disk.look_tells truth
  rw [← hlook, doing_ok h] at htells hkept
  rcases htells with htruth | ⟨cause, -, hcause⟩
  · exact ⟨htruth.symm, hkept⟩
  · cases hcause

end Workbench

namespace Store

open Artifact (fileNameOf)

variable {store : Store} {spec : AgentSpec} {bench after last : Workbench} {written : Written}
  {a : Artifact} {outcome : WriteOutcome} {path source text : String}

/-! ## Writes that succeed -/

theorem persist_ok {disk after : Disk} {bytes : ByteArray} {mode : Nat}
    (h : disk.persist path bytes mode = (.ok (), after)) :
    disk.tree.replaceEntry disk.home path bytes mode = .ok after.tree ∧ after.home = disk.home := by
  have hperform := disk.perform_cases ((disk.tree.replaceEntry disk.home path bytes mode).map
    ((), ·))
  rw [← Disk.persist, h] at hperform
  rcases hperform with ⟨_, _, hanswer, _⟩ | ⟨_, _, hanswer, _⟩ | ⟨_, tree, hop, -, hkept⟩
  · cases hanswer
  · cases hanswer
  · refine ⟨?_, hkept.home⟩
    cases hreplace : disk.tree.replaceEntry disk.home path bytes mode with
    | error cause =>
      rw [hreplace] at hop
      cases hop
    | ok tree' =>
      rw [hreplace] at hop
      cases hop
      rw [hkept.tree]

/-- A tree where a file was put under a path once all the directories on the way were there. -/
def Replaced (path source : String) (before after : Disk) : Prop :=
  ∃ mid mode, FileTree.Extends before.tree mid ∧
    mid.replaceEntry before.home path source.toUTF8 mode = .ok after.tree ∧
    after.home = before.home

theorem replace_ok (h : store.replace path source bench = (.ok (), after)) :
    Replaced path source bench.disk after.disk := by
  have hmade := (bench.disk.makeDirectories_paved store.directory).kept
  have hhome := bench.disk.makeDirectories_home store.directory
  rw [replace] at h
  split at h
  · cases h
  rename_i made hmake
  rw [← Workbench.doing_disk hmake] at hmade hhome
  split at h
  · cases h
  rename_i opened hopen
  split at h
  · cases h
  rename_i filled hfill
  split at h
  · cases h
  rename_i mode moded hmode
  split at h
  · cases h
  rename_i closed hclose
  have hlooked := modeFor_looked path filled
  rw [hmode] at hlooked
  have hkept := (((Workbench.doing_look_ok rfl hopen).2.trans (Workbench.doing_look_ok rfl hfill).2
    ).trans hlooked.kept).trans (Workbench.doing_look_ok rfl hclose).2
  -- The last operation is the one that changes a file.
  obtain ⟨hput, hlast⟩ := persist_ok (Workbench.doing_ok h)
  rw [hkept.home, hhome] at hput
  exact ⟨closed.disk.tree, mode, hkept.tree ▸ hmade, hput, hlast.trans (hkept.home.trans hhome)⟩

theorem refine_ok {answer : WriteOutcome} (h : refine path a outcome bench = (.ok answer, after)) :
    bench.disk.Kept after.disk ∧ (answer = outcome ∨ outcome = .updated ∧ answer = .unchanged ∧
      bench.disk.tree.readText bench.disk.home path = .ok a.source) := by
  have hkept := (refine_looked path a outcome bench).kept
  rw [h] at hkept
  refine ⟨hkept, ?_⟩
  rw [refine] at h
  by_cases houtcome : outcome = .updated
  · rw [if_pos houtcome] at h
    split at h
    · rename_i text mid hread
      obtain ⟨htext, -⟩ := Workbench.doing_look_ok rfl hread
      by_cases hsame : text = a.source
      · rw [if_pos hsame] at h
        cases h
        exact Or.inr ⟨houtcome, rfl, hsame ▸ htext⟩
      · rw [if_neg hsame] at h
        cases h
        exact Or.inl houtcome.symm
    · cases h
  · rw [if_neg houtcome] at h
    cases h
    exact Or.inl rfl

/-- A write finds the text of its artifact under its path, or puts it there. -/
theorem commit_ok (houtcome : outcome ≠ .unchanged)
    (h : store.commit a outcome bench = (.ok written, last)) :
    written.slug = a.slug ∧ written.path = Path.join store.directory a.fileName ∧
      written.digest = a.digest ∧
      (bench.disk.tree.readText bench.disk.home written.path = .ok a.source ∧
          bench.disk.Kept last.disk ∨
        Replaced written.path a.source bench.disk last.disk) := by
  rw [commit] at h
  simp only at h
  split at h
  · cases h
  rename_i answer refined hrefine
  obtain ⟨hkept, hanswer⟩ := refine_ok hrefine
  by_cases hunchanged : answer = .unchanged
  · rw [if_pos hunchanged] at h
    cases h
    rcases hanswer with rfl | ⟨-, -, htext⟩
    · exact absurd hunchanged houtcome
    · exact ⟨rfl, rfl, rfl, Or.inl ⟨htext, hkept⟩⟩
  · rw [if_neg hunchanged] at h
    split at h
    · cases h
    rename_i replaced hreplace
    cases h
    have hreplaced := replace_ok hreplace
    rw [Replaced, hkept.tree, hkept.home] at hreplaced
    exact ⟨rfl, rfl, rfl, Or.inr hreplaced⟩

/-- What a write that succeeds found out, and what it left under its path. -/
structure Leaves (store : Store) (spec : AgentSpec) (before after : Disk) (written : Written)
    (a : Artifact) (outcome : WriteOutcome) : Prop where
  rendered : ∃ b, spec.render = .ok b
  render : spec.renderAs a.slug = .ok a
  placed : Placed store.policy spec.name (slotOn store.directory before) a.slug outcome
  slug : written.slug = a.slug
  path : written.path = store.artifactPath a.slug
  digest : written.digest = a.digest
  left : before.tree.readText before.home written.path = .ok a.source ∧ before.Kept after ∨
    Replaced written.path a.source before after

theorem write_leaves (hhonest : bench.disk.Honest)
    (h : store.write spec bench = (.ok written, last)) :
    ∃ a outcome, Leaves store spec bench.disk last.disk written a outcome := by
  rw [write] at h
  split at h
  · cases h
  rename_i artifact hrender
  split at h
  · cases h
  rename_i a outcome planned hplan
  obtain ⟨hkept, ⟨slug, b, outcome', hanswer, hb, hplaced⟩ | ⟨cause, hcause, -⟩⟩ :=
    hplan ▸ plan_settles store bench hrender hhonest
  · obtain ⟨rfl, rfl⟩ := Prod.mk.inj (Except.ok.inj hanswer)
    obtain ⟨hslug, hfile⟩ := Artifact.names_of_renderAs hb
    obtain ⟨hwritten, hpath, hdigest, hleft⟩ := commit_ok hplaced.ne_unchanged h
    subst hslug
    rw [hfile] at hpath
    refine ⟨a, outcome, ⟨artifact, hrender⟩, hb, hplaced, hwritten, hpath, hdigest, ?_⟩
    rw [Replaced, hkept.tree, hkept.home] at hleft
    exact hleft.imp_left fun hsame => ⟨hsame.1, hkept.trans hsame.2⟩
  · cases hcause

/-! ## Reading it back -/

variable {before next : Disk}

theorem Leaves.text_eq (h : Leaves store spec before next written a outcome)
    (hread : next.tree.readText next.home written.path = .ok text) : text = a.source := by
  rcases h.left with ⟨htext, hkept⟩ | ⟨mid, mode, -, hput, hhome⟩
  · rw [hkept.tree, hkept.home, htext] at hread
    exact (Except.ok.inj hread).symm
  · rw [hhome] at hread
    have hbytes := FileTree.readText_of_replaceEntry hput hread
    have hdecoded := FileTree.fromUTF8?_eq_some_iff.mpr hbytes
    rw [FileTree.fromUTF8?_eq_some_iff.mpr rfl] at hdecoded
    exact (Option.some.inj hdecoded).symm

theorem Leaves.isName (h : Leaves store spec before next written a outcome) (j : Nat) :
    Path.IsName (fileNameOf (candidate (slugify spec.name) j)) := by
  obtain ⟨b, hb⟩ := h.rendered
  exact (valid_candidate (valid_slugify (Artifact.renderAs_ok hb).1) j).isName

/-- A place that was passed on the way to another is still one of another agent. -/
theorem Leaves.blocked (h : Leaves store spec before next written a outcome)
    (hfinds : Finds spec.name (slotOn store.directory before a.slug) outcome) {j : Nat}
    (hblocked : Blocked spec.name
      (slotOn store.directory before (candidate (slugify spec.name) j))) :
    Blocked spec.name (slotOn store.directory next (candidate (slugify spec.name) j)) := by
  rcases h.left with ⟨-, hkept⟩ | ⟨mid, mode, hextends, hput, hhome⟩
  · rwa [slotOn_kept _ hkept]
  obtain ⟨k, hslug, -⟩ := h.placed.exists_candidate
  obtain ⟨other, hother, hne⟩ := id hblocked
  obtain ⟨text, htext, rfl⟩ := ofText_eq_owned hother
  rw [h.path, artifactPath] at hput
  have hname : Path.IsName (fileNameOf a.slug) := hslug ▸ h.isName k
  rcases FileTree.readText_replaceEntry_cases hname (h.isName j) hextends htext hput with
    hread | hread | ⟨cause, hcause, hread⟩
  · refine ⟨_, ?_, hne⟩
    rw [slotOn, hhome, hread]
    rfl
  · -- The place that was found would have been that of the other agent.
    refine absurd ⟨_, ?_, hne⟩ hfinds.not_blocked
    rw [slotOn, hread]
    rfl
  · rw [slotOn, hread] at hfinds
    cases cause <;> first | exact absurd rfl hcause | cases hfinds

theorem Leaves.placed_again (h : Leaves store spec before next written a outcome)
    (htext : next.tree.readText next.home written.path = .ok a.source) :
    Placed store.policy spec.name (slotOn store.directory next) a.slug .updated := by
  have howned : slotOn store.directory next a.slug = .owned spec.name := by
    rw [h.path] at htext
    rw [slotOn, ← artifactPath, htext, Slot.ofText, Artifact.parse_name_of_renderAs h.render]
  obtain ⟨k, hslug, hpolicy, hblocked⟩ := h.placed.exists_candidate
  refine placed_found k hpolicy hslug.symm (fun j hj => ?_) (.of_owned howned)
  rcases h.placed.finds_or_blocked with hfinds | ⟨-, hnatural, -, -⟩
  · exact h.blocked hfinds (hblocked j hj)
  · obtain rfl : k = 0 := candidate_inj.mp (hslug.symm.trans hnatural)
    exact absurd hj (Nat.not_lt_zero j)

/-! ## Writing it again -/

theorem Leaves.write_again (h : Leaves store spec before next written a outcome)
    (htext : next.tree.readText next.home written.path = .ok a.source) (events : List Event) :
    ∃ final, store.write spec ⟨next.mended, events⟩ =
        (.ok { written with outcome := .unchanged }, final) ∧ final.disk = next.mended := by
  have hplaced : Placed store.policy spec.name (slotOn store.directory next.mended) a.slug
      .updated := h.placed_again htext
  obtain ⟨b, hb⟩ := h.rendered
  rw [h.path] at htext
  have hfaults : (Workbench.mk next.mended events).disk.faults = [] := rfl
  obtain ⟨final, hwrite, hfinal⟩ := write_unchanged store hfaults hb h.render hplaced htext
  refine ⟨final, ?_, hfinal⟩
  rw [hwrite, h.slug, h.path, h.digest]

/-- A write sees the name of a spec and its artifacts, and nothing else of it. -/
theorem write_eq_of_renderAs_eq {spec' : AgentSpec} (hname : spec'.name = spec.name)
    (hrender : ∀ slug, spec'.renderAs slug = spec.renderAs slug) (bench : Workbench) :
    store.write spec' bench = store.write spec bench := by
  have hplanned : ∀ slug outcome, planned spec' slug outcome = planned spec slug outcome := by
    intro slug outcome
    rw [planned, hrender, planned]
  have hcounted : ∀ base n bench,
      store.counted spec' base n bench = store.counted spec base n bench := by
    intro base n bench
    induction hleft : UInt32.size - n.toNat generalizing n bench with
    | zero => exact absurd n.toNat_lt_size (by omega)
    | succ left ih =>
      have hnext (after : Workbench) (h : n.toNat + 1 < UInt32.size) :
          store.counted spec' base (n + 1) after = store.counted spec base (n + 1) after := by
        apply ih
        rw [toNat_next h]
        omega
      rw [counted, counted]
      simp only [hplanned, hname]
      obtain ⟨answer, after⟩ := store.owner (numberedSlug base n.toNat) bench
      rcases answer with cause | _ | name
      · rfl
      · rfl
      · by_cases hmore : n.toNat + 1 < UInt32.size
        · simp only [hmore, if_true, hnext after hmore]
        · simp only [hmore, if_false]
  simp only [write, AgentSpec.render, plan, settle, hname, hrender, hcounted]

/-- What a write has left at its path reads back to a spec that a write under the same policy finds
there. -/
theorem write_parseSpec (hinputs : spec.inputs.names.Nodup) (houtputs : spec.outputs.names.Nodup)
    (hhonest : bench.disk.Honest) (h : store.write spec bench = (.ok written, last))
    (htext : last.disk.tree.readText last.disk.home written.path = .ok text) (events : List Event) :
    ∃ final, store.write (Artifact.parseSpec text) ⟨last.disk.mended, events⟩ =
        (.ok { written with outcome := .unchanged }, final) ∧ final.disk = last.disk.mended := by
  obtain ⟨a, outcome, hleaves⟩ := write_leaves hhonest h
  obtain rfl := hleaves.text_eq htext
  have hparse : Artifact.parseSpec a.source = spec.canonical := by
    rw [Artifact.parseSpec, AgentSpec.parse_canonical hinputs houtputs hleaves.render]
  have hname : spec.canonical.name = spec.name := rfl
  rw [hparse, write_eq_of_renderAs_eq hname spec.renderAs_canonical]
  exact hleaves.write_again htext events

end Store
end Agentry
