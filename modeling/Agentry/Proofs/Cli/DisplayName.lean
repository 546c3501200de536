import Agentry.Cli.Basic
import Agentry.Proofs.Cli.Create
/-!
# Running an agent by its name

An agent that is asked for by its display name is looked for under the slug of that name. In a
directory that was filled from the command line an artifact stands there whenever some artifact has
the name, and that artifact is the one that runs. It is the agent's own unless a suffix was given.
-/
namespace Agentry.Cli

open Store (Filed Fresh Ready Stocked Stores Taken candidate slotAt)

/-- The reply to a run of an agent, and the disk after it. -/
def runSpec (world : World) (settings : Settings) (spec : AgentSpec) (arguments : List String)
    (disk : Disk) : Reply × Disk :=
  let report := (Runner.new spec (Behavior.ofSpec spec) ⟨settings.strictNumbers⟩).report
    world.platform (sandboxOf world settings) world.stamp arguments disk
  let text := report.result.toJson.prettyText ++ "\n"
  (if report.result.isSuccess then .ok text else .failed text, report.world)

variable {directory name : String} {root : Location} {disk : Disk}

/-! ## The slug that is asked for -/

theorem entry_of_exists? (hready : Ready directory root disk) (hname : Path.IsName name) :
    disk.tree.exists? disk.home (Path.join directory name) = true →
      disk.tree.get? (root ++ [name]) ≠ none := by
  intro hexists hnone
  rw [FileTree.exists?, FileTree.mode, FileTree.locate_join hready.leads hname hready.linkless]
    at hexists
  split at hexists
  · simp only [hnone, and_self, if_true] at hexists
    cases hexists
  · cases hexists

theorem not_exists?_of_nul {tree : FileTree} {home : Location} {path : String}
    (hnul : '\x00' ∈ path.toList) : tree.exists? home path = false := by
  have hcontains : path.toList.contains '\x00' = true := by simpa using hnul
  rw [FileTree.exists?, FileTree.mode, FileTree.locate, if_pos hcontains]
  rfl

/-- A name without a slash that has a file of its own in the directory is a slug already. -/
theorem artifactSlug_eq (hready : Ready directory root disk)
    (hstocked : Stocked directory root disk.tree) (policy : CollisionPolicy)
    (hpath : '/' ∈ name.toList →
      disk.tree.exists? disk.home (Path.join directory (Artifact.fileNameOf name)) = false) :
    artifactSlug ⟨directory, policy⟩ name disk = slugify name := by
  rw [artifactSlug]
  split
  · rename_i hexists
    by_cases hslash : '/' ∈ name.toList
    · rw [Store.artifactPath, hpath hslash] at hexists
      cases hexists
    by_cases hnul : '\x00' ∈ name.toList
    · have hfile : '\x00' ∈ (Artifact.fileNameOf name).toList := by
        simp [Artifact.fileNameOf, hnul]
      rw [Store.artifactPath, not_exists?_of_nul (Path.mem_join_of_mem directory hfile)] at hexists
      cases hexists
    -- What stands in the directory went there under a slug.
    have hentry := entry_of_exists? hready (Artifact.isName_fileNameOf hslash hnul) hexists
    have hvalid := hstocked.valid name (hstocked.artifact name hentry)
    exact (slugify_of_valid hvalid).symm
  · rfl

theorem runAgent_of_slotText (world : World) (settings : Settings) (arguments : List String)
    {slug text : String} (hready : Ready settings.registry root disk) (hfaults : disk.faults = [])
    (hslug : artifactSlug ⟨settings.registry, .reject⟩ name disk = slug)
    (hvalid : Slug.Valid slug.toList)
    (htext : Store.slotText settings.registry disk.tree root slug = .ok text) :
    runAgent world settings name arguments disk =
      runSpec world settings (Artifact.parse text).spec arguments disk := by
  have hread := Store.read_of_slotText ⟨settings.registry, .reject⟩ hready hfaults hvalid.isName
    htext []
  have hempty : slug.isEmpty = false := by
    have hne : slug ≠ "" := by
      rintro rfl
      exact hvalid.ne_nil rfl
    simpa using hne
  simp only [runAgent, hslug, loadAgent, hread, Registry.registerSpec, Registry.registerAs, hempty,
    Registry.empty, Registry.get?, Except.mapError, Registry.invoke, Registry.resolve, runSpec]
  simp

/-! ## The artifact that stands there -/

theorem taken_slugify {tree : FileTree} (hstocked : Stocked directory root tree)
    (hfiled : Filed root tree name) : Taken (slotAt directory tree root (slugify name)) := by
  obtain ⟨slug, howned⟩ := hstocked.filed_iff.mp hfiled
  obtain ⟨k, hslug, htaken⟩ := hstocked.packed slug name howned
  cases k with
  | zero =>
    rw [hslug] at howned
    exact ⟨name, howned⟩
  | succ k => exact htaken 0 (Nat.succ_pos k)

/-- Each agent stands at the slug of its name. -/
structure Natural (directory : String) (root : Location) (tree : FileTree) : Prop where
  slug_eq : ∀ slug name, slotAt directory tree root slug = .owned name → slug = slugify name

theorem Natural.step {store : Store} {spec : AgentSpec} {tree after : FileTree} {written : Written}
    (hlinkless : tree.Linkless root) (hpolicy : store.policy ≠ .suffix)
    (hstores : Stores store spec root tree written after)
    (h : Natural store.directory root tree) : Natural store.directory root after := by
  refine ⟨fun slug name howned => ?_⟩
  rw [hstores.slotAt_eq hlinkless] at howned
  split at howned
  · rename_i hslug
    obtain ⟨outcome, hplaced, -⟩ := hstores.placed
    obtain ⟨k, hk, hsuffix, -⟩ := hplaced.exists_candidate
    obtain rfl : k = 0 := hsuffix.resolve_right fun hboth => hpolicy hboth.1
    rw [hslug, hk, ← Store.Slot.owned.inj howned]
    rfl
  · exact h.slug_eq slug name howned

theorem createAll_natural {creations : List Creation} (hfresh : Fresh directory root disk)
    (hregistry : ∀ creation ∈ creations, creation.settings.registry = directory)
    (hpolicy : ∀ creation ∈ creations, creation.policy ≠ .suffix) :
    Natural directory root (createAll creations disk).tree := by
  have hstart : Natural directory root disk.tree :=
    ⟨fun slug name howned => absurd howned (hfresh.not_owned slug name)⟩
  exact (createAll_keeps hregistry
    (fun creation hcreation _ _ _ _ hlinkless hnatural hstores =>
      hnatural.step hlinkless (hpolicy creation hcreation) hstores) hfresh.ready hstart).2

theorem runAgent_of_owned (hready : Ready directory root disk)
    (hstocked : Stocked directory root disk.tree) {other : String}
    (howned : slotAt directory disk.tree root (slugify name) = .owned other)
    (hpath : '/' ∈ name.toList →
      disk.tree.exists? disk.home (Path.join directory (Artifact.fileNameOf name)) = false) :
    ∃ text, disk.tree.entryText root (Artifact.fileNameOf (slugify name)) = .ok text ∧
      (Artifact.parse text).spec.name = other ∧
      ∀ world settings arguments, settings.registry = directory →
        runAgent world settings name arguments disk.mended =
          runSpec world settings (Artifact.parse text).spec arguments disk.mended := by
  obtain ⟨text, htext, hname⟩ := Store.slotAt_eq_owned howned
  refine ⟨text, ?_, hname, ?_⟩
  · rwa [Store.slotText, if_pos (Store.slotText_eq_ok htext).1] at htext
  · rintro world settings arguments rfl
    exact runAgent_of_slotText world settings arguments hready.mended rfl
      (artifactSlug_eq hready.mended hstocked .reject hpath)
      (hstocked.valid _ ⟨other, howned⟩) htext

/-- In a directory that was filled from the command line, a name that some artifact has runs the
artifact at the slug of the name. No other agent runs if no suffix was ever given. -/
theorem runAgent_createAll {creations : List Creation} (hfresh : Fresh directory root disk)
    (hregistry : ∀ creation ∈ creations, creation.settings.registry = directory)
    (hfiled : Filed root (createAll creations disk).tree name)
    (hpath : '/' ∈ name.toList → (createAll creations disk).tree.exists?
      (createAll creations disk).home (Path.join directory (Artifact.fileNameOf name)) = false) :
    ∃ text, (createAll creations disk).tree.entryText root
        (Artifact.fileNameOf (slugify name)) = .ok text ∧
      (∀ world settings arguments, settings.registry = directory →
        runAgent world settings name arguments (createAll creations disk).mended =
          runSpec world settings (Artifact.parse text).spec arguments
            (createAll creations disk).mended) ∧
      ((∀ creation ∈ creations, creation.policy ≠ .suffix) →
        (Artifact.parse text).spec.name = name) := by
  obtain ⟨hready, hstocked⟩ := createAll_stocked creations hfresh hregistry
  obtain ⟨other, hother⟩ := taken_slugify hstocked hfiled
  obtain ⟨text, htext, hname, hrun⟩ := runAgent_of_owned hready hstocked hother hpath
  refine ⟨text, htext, hrun, fun hpolicy => ?_⟩
  obtain ⟨slug, howned⟩ := hstocked.filed_iff.mp hfiled
  have hslug := (createAll_natural hfresh hregistry hpolicy).slug_eq slug name howned
  rw [hslug, hother] at howned
  rw [hname, Store.Slot.owned.inj howned]

/-- What is typed in to create an agent with nothing but a name and a description. -/
def typedIn (name description : String) : SpecSource :=
  .parts ⟨name, description, "1.0.0", [], [], [], .standard⟩

def typedSpec (name description : String) : AgentSpec :=
  ⟨name, description, "1.0.0", "You are " ++ name ++ ". " ++ description, [], .empty, .empty⟩

theorem specOf_typedIn (name description : String) (disk : Disk) :
    specOf (typedIn name description) disk = (.ok (typedSpec name description), disk) := rfl

def agentsSettings : Settings := ⟨false, "agents", 30000, false⟩

/-- Two agents of one slug. The second one gets a suffix. -/
def rivals : List Creation :=
  [⟨agentsSettings, typedIn "Stock Bot" "First", .reject⟩,
    ⟨agentsSettings, typedIn "stock bot" "Second", .suffix⟩]

theorem holds_firstRival : Store.Holds "agents" ["agents"] [("stock-bot", "Stock Bot")]
    (createAll (rivals.take 1) Store.emptyAgents) := by
  obtain ⟨a, ha⟩ : ∃ a, (typedSpec "Stock Bot" "First").render = .ok a :=
    Artifact.exists_renderAs rfl (by decide +kernel) (by decide +kernel)
  exact holds_create agentsSettings _ .reject (Store.fresh_emptyAgents.holds rfl)
    (specOf_typedIn "Stock Bot" "First" _) ha
    (Store.placed_found 0 (Or.inl rfl) (show _ = "stock-bot" by decide +kernel) (by decide +kernel)
      (.of_free (by decide +kernel)))

theorem holds_rivals : Store.Holds "agents" ["agents"]
    [("stock-bot-2", "stock bot"), ("stock-bot", "Stock Bot")]
    (createAll rivals Store.emptyAgents) := by
  obtain ⟨b, hb⟩ : ∃ b, (typedSpec "stock bot" "Second").render = .ok b :=
    Artifact.exists_renderAs rfl (by decide +kernel) (by decide +kernel)
  exact holds_create agentsSettings _ .suffix holds_firstRival
    (specOf_typedIn "stock bot" "Second" _) hb (Store.placed_found 1 (by decide) (show _ = "stock-bot-2" by decide +kernel)
      (by decide +kernel) (.of_free (by decide +kernel)))

/-- Two agents of different slugs. -/
def clerks : List Creation :=
  rivals.take 1 ++ [⟨agentsSettings, typedIn "Floor Clerk" "Second", .overwrite⟩]

theorem holds_clerks : Store.Holds "agents" ["agents"]
    [("floor-clerk", "Floor Clerk"), ("stock-bot", "Stock Bot")]
    (createAll clerks Store.emptyAgents) := by
  obtain ⟨b, hb⟩ : ∃ b, (typedSpec "Floor Clerk" "Second").render = .ok b :=
    Artifact.exists_renderAs rfl (by decide +kernel) (by decide +kernel)
  exact holds_create agentsSettings _ .overwrite holds_firstRival
    (specOf_typedIn "Floor Clerk" "Second" _) hb
    (Store.placed_found 0 (Or.inl rfl) (show _ = "floor-clerk" by decide +kernel)
      (by decide +kernel) (.of_free (by decide +kernel)))

/-- Beside another agent, the second one runs under its name. -/
theorem runAgent_createAll_clerks : ∃ text,
    (createAll clerks Store.emptyAgents).tree.entryText ["agents"]
        "floor-clerk.agent.rs" = .ok text ∧ (Artifact.parse text).spec.name = "Floor Clerk" ∧
      slotAt "agents" (createAll clerks Store.emptyAgents).tree ["agents"] "stock-bot" =
        .owned "Stock Bot" ∧
      ∀ world settings arguments, settings.registry = "agents" →
        runAgent world settings "Floor Clerk" arguments
            (createAll clerks Store.emptyAgents).mended =
          runSpec world settings (Artifact.parse text).spec arguments
            (createAll clerks Store.emptyAgents).mended := by
  have hregistry : ∀ creation ∈ clerks, creation.settings.registry = "agents" := by decide
  have hslash : '/' ∉ "Floor Clerk".toList := by decide
  have hfile : Artifact.fileNameOf (slugify "Floor Clerk") = "floor-clerk.agent.rs" := by
    decide +kernel
  have hfiled : Filed ["agents"] (createAll clerks Store.emptyAgents).tree "Floor Clerk" := by
    obtain ⟨-, hstocked⟩ := createAll_stocked clerks Store.fresh_emptyAgents hregistry
    refine hstocked.filed_iff.mpr ⟨"floor-clerk", ?_⟩
    rw [holds_clerks.slots]
    decide +kernel
  obtain ⟨text, htext, hrun, hname⟩ := runAgent_createAll Store.fresh_emptyAgents hregistry hfiled
    fun hmem => absurd hmem hslash
  rw [hfile] at htext
  refine ⟨text, htext, hname (by decide), ?_, hrun⟩
  rw [holds_clerks.slots]
  decide +kernel

theorem filed_rivals : Filed ["agents"] (createAll rivals Store.emptyAgents).tree "stock bot" := by
  obtain ⟨-, hstocked⟩ := createAll_stocked rivals Store.fresh_emptyAgents (by decide)
  refine hstocked.filed_iff.mpr ⟨"stock-bot-2", ?_⟩
  rw [holds_rivals.slots]
  decide +kernel

/-- Asked for by its name, the second agent does not run: the first one does. -/
theorem runAgent_rivals :
    Filed ["agents"] (createAll rivals Store.emptyAgents).tree "stock bot" ∧
      ∃ spec : AgentSpec, spec.name = "Stock Bot" ∧
        ∀ world settings arguments, settings.registry = "agents" →
          runAgent world settings "stock bot" arguments
              (createAll rivals Store.emptyAgents).mended =
            runSpec world settings spec arguments
              (createAll rivals Store.emptyAgents).mended := by
  obtain ⟨hready, hstocked⟩ :=
    createAll_stocked rivals Store.fresh_emptyAgents (by decide)
  have howned : slotAt "agents" (createAll rivals Store.emptyAgents).tree ["agents"]
      (slugify "stock bot") = .owned "Stock Bot" := by
    rw [holds_rivals.slots]
    decide +kernel
  have hslash : '/' ∉ "stock bot".toList := by decide
  obtain ⟨text, -, hname, hrun⟩ :=
    runAgent_of_owned hready hstocked howned fun hmem => absurd hmem hslash
  exact ⟨filed_rivals, (Artifact.parse text).spec, hname, hrun⟩

end Agentry.Cli
