import Agentry.Proofs.Store.Run
/-!
# Directories by their owners

On a disk without faults the owners of the places tell what a write does: it goes to the place that
its policy gives, and its agent owns that place from then on.
-/
namespace Agentry.Store

open Artifact (fileNameOf)

/-- The places of a directory with some owners, of which the first counts. -/
def slotsOf (directory : String) (owners : List (String × String)) (slug : String) : Slot :=
  if FileTree.Fits directory (fileNameOf slug) then
    match owners.lookup slug with
    | some name => .owned name
    | none => .free
  else .unreadable .nameTooLong

/-- A directory with some owners, on a disk without faults. -/
structure Holds (directory : String) (root : Location) (owners : List (String × String))
    (disk : Disk) : Prop where
  ready : Ready directory root disk
  faultless : disk.faults = []
  slots : slotAt directory disk.tree root = slotsOf directory owners

variable {spec : AgentSpec} {directory slug : String} {root : Location} {disk : Disk}
  {owners : List (String × String)} {outcome : WriteOutcome}

theorem Fresh.holds (h : Fresh directory root disk) (hfaultless : disk.faults = []) :
    Holds directory root [] disk := by
  refine ⟨h.ready, hfaultless, funext fun slug => ?_⟩
  rw [slotAt, slotText, slotsOf]
  split
  · rw [FileTree.entryText, h.get?_eq_none]
    rfl
  · rfl

theorem slotsOf_cons (hfits : FileTree.Fits directory (fileNameOf slug)) (name other : String) :
    slotsOf directory ((slug, name) :: owners) other =
      if other = slug then .owned name else slotsOf directory owners other := by
  by_cases hother : other = slug
  · simp [slotsOf, hother, hfits]
  · have hne : (other == slug) = false := by simpa using hother
    simp [slotsOf, hother, List.lookup_cons, hne]

/-- On a disk without faults, a spec that can be rendered goes to the place that there is for it. -/
theorem Holds.write (store : Store) (bench : Workbench)
    (h : Holds store.directory root owners bench.disk)
    {a : Artifact} (hrender : spec.render = .ok a)
    (hplaced : Placed store.policy spec.name (slotsOf store.directory owners) slug outcome) :
    ∃ written after, store.write spec bench = (.ok written, after) ∧ written.slug = slug ∧
      (written.outcome = .overwrote ↔ outcome = .overwrote) ∧
      Holds store.directory root ((slug, spec.name) :: owners) after.disk := by
  rw [← h.slots] at hplaced
  obtain ⟨written, tree, after, hwrite, hstores, hkept⟩ :=
    write_of_placed store bench h.ready h.faultless hrender hplaced
  -- There is only one place to go.
  obtain ⟨outcome', hplaced', hoverwrote⟩ := hstores.placed
  obtain ⟨rfl, rfl⟩ := hplaced'.unique hplaced
  refine ⟨written, after, hwrite, rfl, hoverwrote, hstores.ready h.ready hkept, ?_, ?_⟩
  · rw [hkept.eq h.faultless]
    exact h.faultless
  · funext other
    rw [hkept.tree, hstores.slotAt_eq h.ready.linkless, h.slots,
      slotsOf_cons (hplaced.open h.ready.linkless).1]

/-- Requests that go to some slugs in turn, and who owns a directory before and after them. -/
inductive Goes (directory : String) :
    List (String × String) → List WriteRequest → List String → List (String × String) → Prop where
  | nil (owners : List (String × String)) : Goes directory owners [] [] owners
  | cons {owners after : List (String × String)} {request : WriteRequest}
    {rest : List WriteRequest} {slug : String} {slugs : List String} (outcome : WriteOutcome) :
    (∃ a, request.spec.render = .ok a) →
      Placed request.policy request.spec.name (slotsOf directory owners) slug outcome →
      Goes directory ((slug, request.spec.name) :: owners) rest slugs after →
      Goes directory owners (request :: rest) (slug :: slugs) after

theorem Holds.writeAll (bench : Workbench) {requests : List WriteRequest} {slugs : List String}
    {after : List (String × String)} (h : Holds directory root owners bench.disk)
    (hgoes : Goes directory owners requests slugs after) :
    (writeAll directory requests bench).1.map (·.2.slug) = slugs ∧
      Holds directory root after (writeAll directory requests bench).2.disk := by
  induction hgoes generalizing bench with
  | nil => exact ⟨rfl, h⟩
  | @cons owners after request rest slug slugs outcome hrender hplaced _ ih =>
    obtain ⟨a, ha⟩ := hrender
    obtain ⟨written, next, hwrite, hslug, -, hnext⟩ :=
      Holds.write ⟨directory, request.policy⟩ bench h ha hplaced
    obtain ⟨hslugs, hend⟩ := ih _ hnext
    simp only [Store.writeAll, hwrite, List.map_cons, hslug, hslugs]
    exact ⟨trivial, hend⟩

/-! ## A directory to start from -/

/-- A disk with nothing on it but one empty directory. -/
def emptyAgents : Disk :=
  .sound ⟨[(["agents"], .directory directoryMode)]⟩ []

theorem fresh_emptyAgents : Fresh "agents" ["agents"] emptyAgents where
  leads := by decide +kernel
  empty := by decide +kernel
  honest := List.not_mem_nil

end Agentry.Store
