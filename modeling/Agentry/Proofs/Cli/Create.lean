import Agentry.Cli.Create
import Agentry.Proofs.Store.OneFile
/-!
# Directories filled from the command line

To create an agent is to write its spec, wherever the spec came from. So what every write keeps holds
in each directory that was filled from the command line.
-/
namespace Agentry.Cli

open Store (Fresh Holds Placed Ready Stocked Stores slotsOf)

variable {directory : String} {root : Location} {disk : Disk}

theorem readNamed_kept (what path : String) (disk : Disk) :
    disk.Kept (readNamed what path disk).2 := by
  have hkept := (disk.look_tells (disk.tree.readText disk.home path)).2
  rw [readNamed, Disk.readText]
  generalize disk.look _ = looked at hkept
  obtain ⟨answer, after⟩ := looked
  cases answer <;> exact hkept

theorem specOf_kept (source : SpecSource) (disk : Disk) : disk.Kept (specOf source disk).2 := by
  cases source with
  | file path =>
    have hkept := readNamed_kept "spec" path disk
    rw [specOf]
    generalize readNamed "spec" path disk = read at hkept
    obtain ⟨answer, after⟩ := read
    cases answer <;> exact hkept
  | parts agent =>
    have hkept : disk.Kept (promptOf agent disk).2 := by
      rw [promptOf]
      cases agent.prompt with
      | text prompt => exact Disk.Kept.refl disk
      | file path => exact readNamed_kept "prompt" path disk
      | standard => exact Disk.Kept.refl disk
    rw [specOf]
    generalize promptOf agent disk = prompt at hkept
    obtain ⟨answer, after⟩ := prompt
    cases answer <;> exact hkept

/-- To create an agent leaves the files as they are, or stores a spec. -/
theorem create_cases (settings : Settings) (source : SpecSource) (policy : CollisionPolicy)
    (hready : Ready settings.registry root disk) :
    disk.Kept (create settings source policy disk).2 ∨
      ∃ spec written tree, Stores ⟨settings.registry, policy⟩ spec root disk.tree written tree ∧
        Disk.Kept { disk with tree } (create settings source policy disk).2 := by
  have hkept := specOf_kept source disk
  rw [create]
  generalize specOf source disk = found at hkept
  obtain ⟨answer, disk'⟩ := found
  cases answer with
  | error trouble => exact Or.inl hkept
  | ok spec =>
    rcases Store.write_cases ⟨settings.registry, policy⟩ spec ⟨disk', []⟩ (hready.kept hkept) with
      ⟨cause, after, hwrite, hafter, -⟩ | ⟨written, tree, after, hwrite, hstores, hafter⟩
    · simp only [hwrite]
      exact Or.inl (hkept.trans hafter)
    · simp only [hwrite]
      have hstores' : Stores ⟨settings.registry, policy⟩ spec root disk.tree written tree := by
        rw [← hkept.tree]
        exact hstores
      exact Or.inr ⟨spec, written, tree, hstores', hkept.trans_tree hafter⟩

/-! ## One after the other -/

/-- An agent to create. -/
structure Creation where
  settings : Settings
  source : SpecSource
  policy : CollisionPolicy

/-- The disk after some agents were created in turn, as far as that went. -/
def createAll : List Creation → Disk → Disk
  | [], disk => disk
  | creation :: rest, disk =>
    createAll rest (create creation.settings creation.source creation.policy disk).2

theorem createAll_keeps {creations : List Creation} {P : FileTree → Prop}
    (hregistry : ∀ creation ∈ creations, creation.settings.registry = directory)
    (hstep : ∀ creation ∈ creations, ∀ spec tree written after, tree.Linkless root → P tree →
      Stores ⟨directory, creation.policy⟩ spec root tree written after → P after)
    (hready : Ready directory root disk) (hstart : P disk.tree) :
    Ready directory root (createAll creations disk) ∧ P (createAll creations disk).tree := by
  induction creations generalizing disk with
  | nil => exact ⟨hready, hstart⟩
  | cons creation rest ih =>
    obtain ⟨settings, source, policy⟩ := creation
    obtain rfl : settings.registry = directory := hregistry _ List.mem_cons_self
    have hregistry' := fun c (hc : c ∈ rest) => hregistry c (List.mem_cons_of_mem _ hc)
    have hstep' := fun c (hc : c ∈ rest) => hstep c (List.mem_cons_of_mem _ hc)
    rw [createAll]
    rcases create_cases settings source policy hready with
      hkept | ⟨spec, written, tree, hstores, hkept⟩
    · exact ih hregistry' hstep' (hready.kept hkept) (hkept.tree ▸ hstart)
    · have hnext := hstep _ List.mem_cons_self spec _ _ _ hready.linkless hstart hstores
      exact ih hregistry' hstep' (hstores.ready hready hkept) (hkept.tree ▸ hnext)

theorem createAll_stocked (creations : List Creation) (hfresh : Fresh directory root disk)
    (hregistry : ∀ creation ∈ creations, creation.settings.registry = directory) :
    Ready directory root (createAll creations disk) ∧
      Stocked directory root (createAll creations disk).tree :=
  createAll_keeps hregistry
    (fun _ _ _ _ _ _ hlinkless hstocked hstores => hstocked.step hlinkless hstores)
    hfresh.ready hfresh.stocked

theorem holds_create (settings : Settings) (source : SpecSource) (policy : CollisionPolicy)
    {owners : List (String × String)} {spec : AgentSpec} {slug : String} {outcome : WriteOutcome}
    (h : Holds settings.registry root owners disk) (hsource : specOf source disk = (.ok spec, disk))
    {a : Artifact} (hrender : spec.render = .ok a)
    (hplaced : Placed policy spec.name (slotsOf settings.registry owners) slug outcome) :
    Holds settings.registry root ((slug, spec.name) :: owners)
      (create settings source policy disk).2 := by
  obtain ⟨written, after, hwrite, -, -, hafter⟩ :=
    Holds.write ⟨settings.registry, policy⟩ ⟨disk, []⟩ h hrender hplaced
  simp only [create, hsource, hwrite]
  exact hafter

end Agentry.Cli
