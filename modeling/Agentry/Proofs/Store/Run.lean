import Agentry.Proofs.Store.Write
/-!
# Write after write

Writes to one directory follow each other, each under a policy of its own. What holds of an empty
directory and is kept by every write that stores its spec holds after all of them.
-/
namespace Agentry.Store

/-- A spec to write, and what to do when its slug is taken. -/
structure WriteRequest where
  policy : CollisionPolicy
  spec : AgentSpec
  deriving DecidableEq

/-- The specs that were written, each with its file. -/
abbrev WriteLog := List (AgentSpec × Written)

/-- Writes to a directory in turn. A write that fails leaves nothing in the log. -/
def writeAll (directory : String) : List WriteRequest → Workbench → WriteLog × Workbench
  | [], bench => ([], bench)
  | request :: rest, bench =>
    match (Store.mk directory request.policy).write request.spec bench with
    | (.error _, bench) => writeAll directory rest bench
    | (.ok written, bench) =>
      let (log, bench) := writeAll directory rest bench
      ((request.spec, written) :: log, bench)

/-- An empty directory, on a disk where no fault reports that a file is missing. -/
structure Fresh (directory : String) (root : Location) (disk : Disk) : Prop where
  leads : disk.tree.directory disk.home directory = .ok root
  empty : disk.tree.names root = []
  honest : disk.Honest

variable {directory : String} {root : Location} {disk : Disk} {bench : Workbench}
  {requests : List WriteRequest}

theorem Fresh.get?_eq_none (h : Fresh directory root disk) (name : String) :
    disk.tree.get? (root ++ [name]) = none :=
  FileTree.get?_of_names_eq_nil h.empty name

theorem Fresh.ready (h : Fresh directory root disk) : Ready directory root disk where
  leads := h.leads
  linkless name target := by simp [h.get?_eq_none name]
  honest := h.honest

theorem Fresh.not_owned (h : Fresh directory root disk) (slug name : String) :
    slotAt directory disk.tree root slug ≠ .owned name := by
  intro howned
  obtain ⟨text, htext, -⟩ := slotAt_eq_owned howned
  obtain ⟨-, bytes, mode, hfile⟩ := slotText_eq_ok htext
  rw [h.get?_eq_none] at hfile
  cases hfile

theorem writeAll_append (done rest : List WriteRequest) (bench : Workbench) :
    (writeAll directory (done ++ rest) bench).2 =
      (writeAll directory rest (writeAll directory done bench).2).2 := by
  induction done generalizing bench with
  | nil => rfl
  | cons request done ih =>
    simp only [List.cons_append, writeAll]
    split
    · exact ih _
    · exact ih _

theorem writeAll_singleton (request : WriteRequest) (bench : Workbench) :
    (writeAll directory [request] bench).2 =
      ((Store.mk directory request.policy).write request.spec bench).2 := by
  simp only [writeAll]
  split <;> rename_i hwrite <;> rw [hwrite]

/-- What every stored spec keeps is kept by all the writes. -/
theorem writeAll_keeps {P : WriteLog → FileTree → Prop}
    (hstep : ∀ request ∈ requests, ∀ log tree written after, tree.Linkless root →
      P log tree → Stores ⟨directory, request.policy⟩ request.spec root tree written after →
      P (log ++ [(request.spec, written)]) after)
    (hready : Ready directory root bench.disk) (log : WriteLog) (hstart : P log bench.disk.tree) :
    Ready directory root (writeAll directory requests bench).2.disk ∧
      P (log ++ (writeAll directory requests bench).1)
        (writeAll directory requests bench).2.disk.tree := by
  induction requests generalizing bench log with
  | nil => exact ⟨hready, by simpa [writeAll] using hstart⟩
  | cons request rest ih =>
    have hrest := fun r (hr : r ∈ rest) => hstep r (List.mem_cons_of_mem _ hr)
    rw [writeAll]
    rcases write_cases ⟨directory, request.policy⟩ request.spec bench hready with
      ⟨cause, after, hwrite, hkept, -⟩ | ⟨written, tree, after, hwrite, hstores, hkept⟩
    · simp only [hwrite]
      rw [← hkept.tree] at hstart
      exact ih hrest (hready.kept hkept) log hstart
    · simp only [hwrite]
      have hnext := hstep request List.mem_cons_self _ _ _ _ hready.linkless hstart hstores
      rw [show tree = after.disk.tree from hkept.tree.symm] at hnext
      obtain ⟨hready', hend⟩ := ih hrest (hstores.ready hready hkept) _ hnext
      exact ⟨hready', by simpa using hend⟩

end Agentry.Store
