import Agentry.Proofs.Files.Paving
import Agentry.Proofs.Store.Write
/-!
# Writes that fail

A write looks at the disk, makes the directory of its store, and gives one file its place in the
end. Nothing is assumed of the disk here: whatever stands there and whichever operation fails, a
failed write leaves every entry as it was, and only directories on the way to the store can be new.
-/
namespace Agentry

namespace Workbench

variable {α β : Type} {bench after : Workbench}

/-- Nothing changed, and a failure was one of the file system. -/
structure Looked (bench : Workbench) (result : Except AgentError α × Workbench) : Prop where
  kept : bench.disk.Kept result.2.disk
  error : ∀ cause, result.1 = .error cause → ∃ fault, cause = .file fault

theorem Looked.ok (h : bench.disk.Kept after.disk) (a : α) : bench.Looked (.ok a, after) :=
  ⟨h, fun _ hcause => by cases hcause⟩

theorem Looked.failed {cause : AgentError}
    (h : bench.Looked ((.error cause, after) : Except AgentError α × Workbench)) :
    bench.Looked ((.error cause, after) : Except AgentError β × Workbench) where
  kept := h.kept
  error other hother := by
    cases hother
    exact h.error cause rfl

theorem doing_disk {operation : Disk → Except IoError α × Disk} {answer : Except AgentError α}
    (h : bench.doing operation = (answer, after)) : after.disk = (operation bench.disk).2 := by
  cases h
  rfl

theorem doing_error {operation : Disk → Except IoError α × Disk} {cause : AgentError}
    (h : bench.doing operation = (.error cause, after)) :
    ∃ fault, (operation bench.disk).1 = .error fault ∧ cause = .file fault := by
  rw [doing] at h
  generalize operation bench.disk = result at h ⊢
  obtain ⟨answer, disk⟩ := result
  cases answer with
  | ok a => cases h
  | error fault =>
    cases h
    exact ⟨fault, rfl, rfl⟩

theorem looked_doing {operation : Disk → Except IoError α × Disk} {truth : Except IoError α}
    (h : operation bench.disk = bench.disk.look truth) : bench.Looked (bench.doing operation) where
  kept := by
    have hdisk : (bench.doing operation).2.disk = (operation bench.disk).2 := doing_disk rfl
    rw [hdisk, h]
    exact (bench.disk.look_tells truth).2
  error cause hcause := by
    obtain ⟨fault, -, hfile⟩ := doing_error (Prod.ext hcause rfl)
    exact ⟨fault, hfile⟩

end Workbench

namespace Store

variable {store : Store} {spec : AgentSpec} {bench after : Workbench} {cause : AgentError}

/-! ## Looking -/

theorem owner_looked (store : Store) (slug : String) (bench : Workbench) :
    bench.Looked (store.owner slug bench) := by
  have hread : bench.Looked (store.read slug bench) := by
    have hlooked : bench.Looked (bench.doing (·.readText (store.artifactPath slug))) :=
      Workbench.looked_doing rfl
    rw [read, readPath]
    split <;> rename_i heq <;> rw [heq] at hlooked
    · exact ⟨hlooked.kept, fun _ hcause => by cases hcause⟩
    · exact hlooked.failed
  rw [owner]
  split
  · rename_i heq
    rw [heq] at hread
    exact .ok hread.kept _
  · rename_i heq
    rw [heq] at hread
    exact .ok hread.kept _
  · rename_i heq
    rw [heq] at hread
    exact hread.failed

theorem counted_kept (store : Store) (spec : AgentSpec) (base : String) (n : UInt32)
    (bench : Workbench) : bench.disk.Kept (store.counted spec base n bench).2.disk := by
  induction hleft : UInt32.size - n.toNat generalizing n bench with
  | zero => exact absurd n.toNat_lt_size (by omega)
  | succ left ih =>
    have howner := (owner_looked store (numberedSlug base n.toNat) bench).kept
    rw [counted]
    split <;> rename_i heq <;> rw [heq] at howner
    · exact howner
    · exact howner
    · split
      · exact howner
      · split
        · rename_i hnext
          refine howner.trans (ih (n + 1) _ ?_)
          rw [toNat_next hnext]
          omega
        · exact howner

theorem orOverflow_snd {α : Type} (counted : Option (Except AgentError α) × Workbench) :
    (orOverflow counted).2 = counted.2 := by
  obtain ⟨_ | answer, bench⟩ := counted <;> rfl

theorem plan_kept (store : Store) (spec : AgentSpec) (a : Artifact) (bench : Workbench) :
    bench.disk.Kept (store.plan spec a bench).2.disk := by
  have howner := (owner_looked store a.slug bench).kept
  rw [plan]
  split <;> rename_i heq <;> rw [heq] at howner
  · exact howner
  · exact howner
  · split
    · exact howner
    · rw [settle]
      split
      · exact howner
      · exact howner
      · rw [orOverflow_snd]
        exact howner.trans (counted_kept store spec a.slug _ _)

theorem refine_looked (path : String) (a : Artifact) (outcome : WriteOutcome) (bench : Workbench) :
    bench.Looked (refine path a outcome bench) := by
  have hlooked : bench.Looked (bench.doing (·.readText path)) := Workbench.looked_doing rfl
  rw [refine]
  split
  · split <;> rename_i heq <;> rw [heq] at hlooked
    · exact .ok hlooked.kept _
    · exact hlooked.failed
  · exact .ok (Disk.Kept.refl _) _

theorem modeFor_looked (path : String) (bench : Workbench) :
    bench.Looked (modeFor path bench) := by
  have hlooked : bench.Looked (bench.doing (·.mode path)) := Workbench.looked_doing rfl
  rw [modeFor]
  split
  · rename_i heq
    rw [heq] at hlooked
    exact .ok hlooked.kept _
  · exact hlooked

/-! ## Failing -/

theorem persist_kept_of_error {disk : Disk} {path : String} {bytes : ByteArray} {mode : Nat}
    {fault : IoError} (h : (disk.persist path bytes mode).1 = .error fault) :
    disk.Kept (disk.persist path bytes mode).2 := by
  rw [Disk.persist] at h ⊢
  rcases disk.perform_cases ((disk.tree.replaceEntry disk.home path bytes mode).map ((), ·)) with
    ⟨_, _, _, hkept⟩ | ⟨_, _, _, hkept⟩ | ⟨_, _, _, hanswer, _⟩
  · exact hkept
  · exact hkept
  · rw [hanswer] at h
    cases h

/-- A failure of the file system that left nothing but new directories on the way to a path. -/
def PavedOnly (path : String) (bench after : Workbench) (cause : AgentError) : Prop :=
  (∃ fault, cause = .file fault) ∧ bench.disk.PavedTo path after.disk

theorem PavedOnly.of_looked {α : Type} {path : String} {mid : Workbench}
    (hpaved : bench.disk.PavedTo path mid.disk)
    (h : mid.Looked ((.error cause, after) : Except AgentError α × Workbench)) :
    PavedOnly path bench after cause :=
  ⟨h.error cause rfl, hpaved.trans_kept h.kept⟩

/-- A step that only looks, between what has been made so far and what comes next. -/
theorem PavedOnly.step {path : String} {mid : Workbench}
    {answer : Except AgentError Unit × Workbench}
    {next : Workbench → Except AgentError Unit × Workbench}
    (hpaved : bench.disk.PavedTo path mid.disk) (hlooked : mid.Looked answer)
    (h : (match answer with
      | (.error cause, bench) => (.error cause, bench)
      | (.ok (), bench) => next bench) = (.error cause, after))
    (hnext : ∀ last, bench.disk.PavedTo path last.disk → next last = (.error cause, after) →
      PavedOnly path bench after cause) :
    PavedOnly path bench after cause := by
  split at h
  · cases h
    exact .of_looked hpaved hlooked
  · exact hnext _ (hpaved.trans_kept hlooked.kept) h

theorem replace_error {path source : String}
    (h : store.replace path source bench = (.error cause, after)) :
    PavedOnly store.directory bench after cause := by
  have hmade := bench.disk.makeDirectories_paved store.directory
  rw [replace] at h
  split at h <;> rename_i hdoing <;> rw [← Workbench.doing_disk hdoing] at hmade
  · cases h
    obtain ⟨fault, -, hfile⟩ := Workbench.doing_error hdoing
    exact ⟨⟨fault, hfile⟩, hmade⟩
  refine .step hmade (Workbench.looked_doing rfl) h fun opened hopened h => ?_
  refine .step hopened (Workbench.looked_doing rfl) h fun filled hfilled h => ?_
  have hmode := modeFor_looked path filled
  split at h <;> rename_i heq <;> rw [heq] at hmode
  · cases h
    exact .of_looked hfilled hmode
  refine .step (hfilled.trans_kept hmode.kept) (Workbench.looked_doing rfl) h fun last hlast h => ?_
  -- The last operation is the one that could have changed a file.
  obtain ⟨fault, hfault, hfile⟩ := Workbench.doing_error h
  refine ⟨⟨fault, hfile⟩, hlast.trans_kept ?_⟩
  rw [Workbench.doing_disk h]
  exact persist_kept_of_error hfault

theorem commit_error {a : Artifact} {outcome : WriteOutcome}
    (h : store.commit a outcome bench = (.error cause, after)) :
    PavedOnly store.directory bench after cause := by
  have hrefined := refine_looked (Path.join store.directory a.fileName) a outcome bench
  rw [commit] at h
  simp only at h
  split at h <;> rename_i heq <;> rw [heq] at hrefined
  · cases h
    exact .of_looked (Disk.Kept.refl _).pavedTo hrefined
  split at h
  · cases h
  split at h
  · rename_i hreplace
    cases h
    obtain ⟨hfile, hpaved⟩ := replace_error hreplace
    exact ⟨hfile, .of_kept hrefined.kept hpaved⟩
  · cases h

/-- A failed write leaves every entry as it was. Only directories on the way to the store can be
new, and only if it was the file system that failed. -/
theorem write_error_keeps_entries (store : Store) (spec : AgentSpec) (bench : Workbench)
    (h : (store.write spec bench).1 = .error cause) :
    let before := bench.disk
    let after := (store.write spec bench).2.disk
    (∀ loc node, before.tree.get? loc = some node → after.tree.get? loc = some node) ∧
      (∀ loc node, before.tree.get? loc = none → after.tree.get? loc = some node →
        node = .directory directoryMode ∧
          after.tree.OnWay (FileTree.linkStart before.home store.directory)
            ((Path.movingSteps store.directory.toList).map String.ofList) loc) ∧
      ((∀ fault, cause ≠ .file fault) → after.tree = before.tree) := by
  have hpaved : bench.disk.PavedTo store.directory (store.write spec bench).2.disk ∧
      ((∀ fault, cause ≠ .file fault) →
        (store.write spec bench).2.disk.tree = bench.disk.tree) := by
    rw [write] at h ⊢
    split
    · exact ⟨(Disk.Kept.refl _).pavedTo, fun _ => rfl⟩
    rename_i a hrender
    have hplan := plan_kept store spec a bench
    simp only [hrender] at h
    split <;> rename_i heq <;> simp only [heq] at h hplan
    · exact ⟨hplan.pavedTo, fun _ => hplan.tree⟩
    obtain ⟨⟨fault, hfile⟩, hcommit⟩ := commit_error (Prod.ext h rfl)
    exact ⟨.of_kept hplan hcommit, fun hother => absurd hfile (hother fault)⟩
  intro before after
  exact ⟨hpaved.1.kept, hpaved.1.made, hpaved.2⟩

/-- A store whose directory would be below a file. The way to it leads through a directory that is
missing. -/
def blockedStore : Store := ⟨"work/../notes/agents", .suffix⟩

/-- A disk with nothing on it but one file. -/
def notesDisk : Disk := .sound ⟨[(["notes"], .file "keep".toUTF8 0o600)]⟩ []

def stockBot : AgentSpec := ⟨"Stock Bot", "First", "1.0.0", "Trade.", [], .empty, .empty⟩

theorem write_blockedStore :
    (blockedStore.write stockBot ⟨notesDisk, []⟩).1 = .error (.file .alreadyExists) := by
  have hslugify : slugify stockBot.name = "stock-bot" := by decide +kernel
  obtain ⟨a, ha⟩ : ∃ a, stockBot.renderAs "stock-bot" = .ok a :=
    Artifact.exists_renderAs rfl (by decide) (by decide +kernel)
  have hrender : stockBot.render = .ok a := by rw [AgentSpec.render, hslugify, ha]
  have hanswer : (blockedStore.owner "stock-bot" ⟨notesDisk, []⟩).1 = .ok none := by decide +kernel
  have hkept := (owner_looked blockedStore "stock-bot" ⟨notesDisk, []⟩).kept.eq rfl
  generalize howner : blockedStore.owner "stock-bot" ⟨notesDisk, []⟩ = result at hanswer hkept
  obtain ⟨answer, mid⟩ := result
  obtain rfl : answer = .ok none := hanswer
  have hdisk : mid.disk = notesDisk := hkept
  have hplan : blockedStore.plan stockBot a ⟨notesDisk, []⟩ = (.ok (a, .created), mid) := by
    rw [plan, (Artifact.names_of_renderAs ha).1, howner]
  -- The missing directory is made, and then the file is in the way.
  have hmake : (mid.doing (·.makeDirectories blockedStore.directory)).1 =
      .error (.file .alreadyExists) := by
    have hcause : (notesDisk.makeDirectories blockedStore.directory).1 = .error .alreadyExists := by
      decide +kernel
    simp only [Workbench.doing, hdisk, hcause, Except.mapError]
  generalize hdoing : mid.doing (·.makeDirectories blockedStore.directory) = made at hmake
  obtain ⟨answer, last⟩ := made
  obtain rfl : answer = .error (.file .alreadyExists) := hmake
  rw [write, hrender]
  simp only [hplan, commit, refine, replace, hdoing, reduceCtorEq, if_false]

theorem write_error_keeps_entries_blockedStore :
    let after := (blockedStore.write stockBot ⟨notesDisk, []⟩).2.disk.tree
    (blockedStore.write stockBot ⟨notesDisk, []⟩).1 = .error (.file .alreadyExists) ∧
      after.get? ["notes"] = some (.file "keep".toUTF8 0o600) ∧
      ∀ loc node, notesDisk.tree.get? loc = none → after.get? loc = some node →
        node = .directory directoryMode ∧ after.OnWay [] ["work", "..", "notes", "agents"] loc := by
  obtain ⟨hkept, hmade, -⟩ :=
    write_error_keeps_entries blockedStore stockBot ⟨notesDisk, []⟩ write_blockedStore
  have hsteps : (Path.movingSteps blockedStore.directory.toList).map String.ofList =
      ["work", "..", "notes", "agents"] := by decide +kernel
  rw [hsteps] at hmade
  exact ⟨write_blockedStore, hkept _ _ rfl, hmade⟩

end Store
end Agentry
