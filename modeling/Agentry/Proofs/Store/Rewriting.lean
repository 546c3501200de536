import Agentry.Proofs.Store.Effect
/-!
# Writing and reading again

What a write stored is the artifact of its spec and reads back as that spec. The place where a spec
went is the place where it goes again: those that are tried before it belong to other agents as they
did before, and the text there is the text to write, so a second write touches nothing.
-/
namespace Agentry.Store

open Artifact (fileNameOf)

variable {store : Store} {spec : AgentSpec} {bench last : Workbench} {root : Location}
  {tree after : FileTree} {name slug : String} {written : Written}

theorem Placed.again {policy : CollisionPolicy} {slots slots' : String → Slot}
    {outcome : WriteOutcome} (h : Placed policy name slots slug outcome)
    (hslots : ∀ other, slots' other = if other = slug then .owned name else slots other) :
    Placed policy name slots' slug .updated := by
  have howned : slots' slug = .owned name := by rw [hslots, if_pos rfl]
  cases h with
  | found k outcome hk hblocked _ =>
    refine .found k _ hk (fun j hj => ?_) (.of_owned howned)
    have hne : candidate (slugify name) j ≠ candidate (slugify name) k :=
      mt candidate_inj.mp (Nat.ne_of_lt hj)
    rw [hslots, if_neg hne]
    exact hblocked j hj
  | overwrote =>
    exact placed_found 0 (Or.inl rfl) rfl (fun j hj => absurd hj (Nat.not_lt_zero j))
      (.of_owned howned)

theorem render_of_write (h : store.write spec bench = (.ok written, last)) :
    ∃ a, spec.render = .ok a := by
  rw [write] at h
  split at h
  · cases h
  · rename_i a hrender
    exact ⟨a, hrender⟩

theorem Stores.write_again (hlinkless : tree.Linkless root)
    (hready : Ready store.directory root bench.disk) (hfaults : bench.disk.faults = [])
    {a : Artifact} (hrender : spec.render = .ok a)
    (h : Stores store spec root tree written bench.disk.tree) :
    ∃ last, store.write spec bench = (.ok { written with outcome := .unchanged }, last) ∧
      last.disk = bench.disk := by
  obtain ⟨outcome, hplaced, -⟩ := h.placed
  obtain ⟨b, hb, htext⟩ := h.slotText_eq hlinkless
  obtain ⟨hslug, -⟩ := Artifact.names_of_renderAs hb
  have hagain : Placed store.policy spec.name (slotOn store.directory bench.disk) written.slug
      .updated :=
    (hplaced.again (h.slotAt_eq hlinkless)).congr fun k =>
      hready.slotOn_eq (valid_candidate (valid_slugify (Artifact.renderAs_ok hrender).1) k).isName
  have hread : bench.disk.tree.readText bench.disk.home (store.artifactPath written.slug) =
      .ok b.source :=
    (FileTree.readText_join hready.leads h.valid.isName hready.linkless).trans
      ((htext written.slug).trans (if_pos rfl))
  rw [← hslug] at hb hagain hread
  obtain ⟨last, hwrite, hlast⟩ := write_unchanged store hfaults hrender hb hagain hread
  refine ⟨last, ?_, hlast⟩
  rw [hwrite, hslug, ← h.path_eq, h.digest_eq, Artifact.digest_of_renderAs hb]

theorem modeAt_cases {file : String} :
    (tree.get? (root ++ [file]) = none → modeAt tree root file = 0o644) ∧
      ∀ bytes mode, tree.get? (root ++ [file]) = some (.file bytes mode) →
        modeAt tree root file = mode := by
  constructor
  · intro hnone
    rw [modeAt, hnone, newFileMode]
  · intro bytes mode hfile
    rw [modeAt, hfile]

/-- The file at the path that a write returns is the artifact of the spec, with the mode that it had
or that of a new file, and reads back as the spec. Writing it again finds it and changes nothing. -/
theorem write_read_write (hspec : spec.WellFormed) (hready : Ready store.directory root bench.disk)
    (h : store.write spec bench = (.ok written, last)) (events : List Event) :
    let before := bench.disk.tree
    let after := last.disk.tree
    let place := root ++ [fileNameOf written.slug]
    (∃ a mode, spec.renderAs written.slug = .ok a ∧
        after.locate last.disk.home .existing written.path = .ok place ∧
        after.get? place = some (.file a.source.toUTF8 mode) ∧
        (before.get? place = none → mode = 0o644) ∧
        (∀ bytes mode', before.get? place = some (.file bytes mode') → mode = mode') ∧
        Artifact.stampedDigest a.source.toList = some written.digest.toList) ∧
      written.digest = spec.digest ∧
      (readPath written.path ⟨last.disk.mended, events⟩).1 = .ok ⟨spec, [], .matching⟩ ∧
      ∃ final, store.write spec ⟨last.disk.mended, events⟩ =
          (.ok { written with outcome := .unchanged }, final) ∧ final.disk = last.disk.mended := by
  obtain ⟨hstores, hkept⟩ := write_ok hready h
  have hlast := hstores.ready hready hkept
  obtain ⟨a, ha, hplace⟩ := hstores.get?_place
  obtain ⟨b, hb, htext⟩ := hstores.slotText_eq hready.linkless
  obtain rfl : a = b := by
    rw [ha] at hb
    exact Except.ok.inj hb
  obtain ⟨outcome, hplaced, -⟩ := hstores.placed
  intro before after place
  refine ⟨⟨a, modeAt before root (fileNameOf written.slug), ha, ?_, hplace, modeAt_cases.1,
    modeAt_cases.2, ?_⟩, hstores.digest_eq, ?_, ?_⟩
  · have hlocate :=
      FileTree.locate_join hlast.leads hstores.valid.isName hlast.linkless .existing
    rw [if_pos (hplaced.open hready.linkless).1, hplace] at hlocate
    rw [hstores.path_eq, artifactPath, hlocate]
    rfl
  · rw [hstores.digest_eq]
    exact Artifact.stampedDigest_of_renderAs ha
  · have hread := read_of_slotText store hlast.mended rfl hstores.valid.isName
      ((htext written.slug).trans (if_pos rfl)) events
    rw [hstores.path_eq]
    change (store.read written.slug _).1 = _
    rw [hread, Artifact.parse_rendered hspec ha]
  · obtain ⟨b, hb⟩ := render_of_write h
    exact Stores.write_again hready.linkless hlast.mended rfl hb hstores

theorem placed_beside_rivalDisk : Placed .suffix stockBot.name
    (slotAt "agents" rivalDisk.tree ["agents"]) "stock-bot-2" .created :=
  placed_found 1 (by decide) (by decide +kernel) (by decide +kernel) (.of_free (by decide +kernel))

theorem write_read_write_rivalDisk : ∃ written last final a,
    (Store.mk "agents" .suffix).write stockBot ⟨rivalDisk, []⟩ = (.ok written, last) ∧
      written.slug = "stock-bot-2" ∧ stockBot.renderAs "stock-bot-2" = .ok a ∧
      last.disk.tree.get? ["agents", "stock-bot-2.agent.rs"] =
        some (.file a.source.toUTF8 0o644) ∧
      (readPath written.path ⟨last.disk.mended, []⟩).1 = .ok ⟨stockBot, [], .matching⟩ ∧
      (Store.mk "agents" .suffix).write stockBot ⟨last.disk.mended, []⟩ =
        (.ok { written with outcome := .unchanged }, final) ∧ final.disk = last.disk.mended := by
  obtain ⟨b, hb⟩ := exists_render_stockBot
  obtain ⟨written, _, last, hwrite, hstores, -⟩ :=
    write_of_placed ⟨"agents", .suffix⟩ ⟨rivalDisk, []⟩ ready_rivalDisk rfl hb
      placed_beside_rivalDisk
  obtain ⟨outcome, hplaced, -⟩ := hstores.placed
  obtain ⟨hslug, -⟩ := hplaced.unique placed_beside_rivalDisk
  obtain ⟨⟨a, mode, ha, -, hplace, hmode, -⟩, -, hread, final, hagain, hfinal⟩ :=
    write_read_write (by decide) ready_rivalDisk hwrite []
  have hfile : fileNameOf "stock-bot-2" = "stock-bot-2.agent.rs" := by decide
  rw [hslug] at ha hplace hmode
  rw [hfile] at hplace hmode
  obtain rfl : mode = 0o644 := hmode rfl
  exact ⟨written, last, final, a, hwrite, hslug, ha, hplace, hread, hagain, hfinal⟩

end Agentry.Store
