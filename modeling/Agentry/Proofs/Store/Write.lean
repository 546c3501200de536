import Agentry.Proofs.Artifact.RoundTrip
import Agentry.Proofs.Store.Plan
/-!
# What a write does

A write that succeeds puts one text in the place that it found, or finds that text there already. A
write that fails changes no file.
-/
namespace Agentry

namespace Workbench

variable {α : Type} {bench mid : Workbench}

/-- A fault of the schedule came in the way, and nothing changed. -/
def Interrupted (bench : Workbench) (result : Except AgentError α × Workbench) : Prop :=
  ∃ cause after, result = (.error (.file cause), after) ∧ some cause ∈ bench.disk.faults ∧
    bench.disk.Kept after.disk

theorem Interrupted.of_kept {result : Except AgentError α × Workbench}
    (hkept : bench.disk.Kept mid.disk) (h : mid.Interrupted result) : bench.Interrupted result := by
  obtain ⟨cause, after, hresult, hfault, hafter⟩ := h
  exact ⟨cause, after, hresult, hkept.faults hfault, hkept.trans hafter⟩

theorem doing_look {operation : Disk → Except IoError α × Disk} {a : α}
    (hlook : operation bench.disk = bench.disk.look (.ok a)) :
    bench.Interrupted (bench.doing operation) ∨
      ∃ after, bench.doing operation = (.ok a, after) ∧ bench.disk.Kept after.disk := by
  have hlooked := bench.disk.look_tells (.ok a)
  rw [← hlook] at hlooked
  rw [doing]
  generalize operation bench.disk = looked at hlooked
  obtain ⟨answer, disk⟩ := looked
  obtain ⟨rfl | ⟨cause, hfault, rfl⟩, hkept⟩ := hlooked
  · exact Or.inr ⟨⟨disk, bench.events⟩, rfl, hkept⟩
  · exact Or.inl ⟨cause, ⟨disk, bench.events⟩, rfl, hfault, hkept⟩

end Workbench

namespace Store

open Artifact (fileNameOf)

variable {store : Store} {spec : AgentSpec} {bench : Workbench} {root : Location}
  {tree after : FileTree} {slug name : String}

/-- What can stand in a place that a write goes to: nothing, or a file. -/
def Open (tree : FileTree) (root : Location) (name : String) : Prop :=
  tree.get? (root ++ [name]) = none ∨
    ∃ bytes mode, tree.get? (root ++ [name]) = some (.file bytes mode)

theorem Open.isDirectoryAt (h : Open tree root name) :
    tree.isDirectoryAt (root ++ [name]) = false := by
  rcases h with h | ⟨bytes, mode, h⟩ <;> rw [FileTree.isDirectoryAt, h]

/-- The mode of a file that is put in a place. -/
def modeAt (tree : FileTree) (root : Location) (name : String) : Nat :=
  match tree.get? (root ++ [name]) with
  | some (.file _ mode) => mode
  | _ => newFileMode

theorem Placed.open {policy : CollisionPolicy} {directory : String} {outcome : WriteOutcome}
    (hlinkless : tree.Linkless root)
    (h : Placed policy name (slotAt directory tree root) slug outcome) :
    FileTree.Fits directory (fileNameOf slug) ∧ Open tree root (fileNameOf slug) := by
  have howned : ∀ other, slotAt directory tree root slug = .owned other →
      FileTree.Fits directory (fileNameOf slug) ∧ Open tree root (fileNameOf slug) := by
    intro other hother
    obtain ⟨text, htext, -⟩ := slotAt_eq_owned hother
    obtain ⟨hfits, hfile⟩ := slotText_eq_ok htext
    exact ⟨hfits, Or.inr hfile⟩
  rcases h.finds_or_blocked with hfinds | ⟨-, -, -, other, hother, -⟩
  · generalize hslot : slotAt directory tree root slug = slot at hfinds
    cases hfinds with
    | created =>
      obtain ⟨hfits, hnone⟩ := slotText_eq_notFound hlinkless (slotAt_eq_free hslot)
      exact ⟨hfits, Or.inl hnone⟩
    | updated => exact howned name hslot
  · exact howned other hother

/-! ## Replacing a file -/

theorem modeFor_cases (hready : Ready store.directory root bench.disk) (hname : Path.IsName name)
    (hfits : FileTree.Fits store.directory name) (hopen : Open bench.disk.tree root name) :
    bench.Interrupted (modeFor (Path.join store.directory name) bench) ∨
      ∃ after, modeFor (Path.join store.directory name) bench =
          (.ok (modeAt bench.disk.tree root name), after) ∧ bench.disk.Kept after.disk := by
  have hmode := FileTree.mode_join hready.leads hname hready.linkless hfits
  have hlook := bench.disk.look_tells (bench.disk.tree.mode bench.disk.home
    (Path.join store.directory name))
  simp only [modeFor, Workbench.doing, Disk.mode]
  rw [hmode] at hlook ⊢
  generalize bench.disk.look _ = looked at hlook ⊢
  obtain ⟨answer, disk⟩ := looked
  obtain ⟨htruth | ⟨cause, hfault, hcause⟩, hkept⟩ := hlook
  · right
    obtain rfl : answer = _ := htruth
    rcases hopen with hnone | ⟨bytes, mode, hfile⟩
    · exact ⟨_, by simp only [modeAt, hnone]; rfl, hkept⟩
    · exact ⟨_, by simp only [modeAt, hfile]; rfl, hkept⟩
  · left
    have hne : cause ≠ .notFound := by
      rintro rfl
      exact hready.honest hfault
    obtain rfl : answer = .error cause := hcause
    refine ⟨cause, ⟨disk, bench.events⟩, ?_, hfault, hkept⟩
    cases cause <;> first | rfl | exact absurd rfl hne

theorem replace_cases (hready : Ready store.directory root bench.disk) (hname : Path.IsName name)
    (hfits : FileTree.Fits store.directory name) (hopen : Open bench.disk.tree root name)
    (source : String) :
    bench.Interrupted (store.replace (Path.join store.directory name) source bench) ∨
      ∃ after, store.replace (Path.join store.directory name) source bench = (.ok (), after) ∧
        Disk.Kept { bench.disk with
          tree := bench.disk.tree.put (root ++ [name])
            (.file source.toUTF8 (modeAt bench.disk.tree root name)) } after.disk := by
  have hstep : ∀ {mid : Workbench} (operation : Disk → Except IoError Unit × Disk),
      (∀ disk : Disk, disk.tree.directory disk.home store.directory = .ok root →
        operation disk = disk.look (.ok ())) → bench.disk.Kept mid.disk →
      bench.Interrupted (mid.doing operation) ∨
        ∃ after, mid.doing operation = (.ok (), after) ∧ bench.disk.Kept after.disk := by
    intro mid operation hoperation hmid
    rcases Workbench.doing_look (hoperation mid.disk (hready.kept hmid).leads) with
      hfault | ⟨after, hdoing, hkept⟩
    · exact Or.inl (hfault.of_kept hmid)
    · exact Or.inr ⟨after, hdoing, hmid.trans hkept⟩
  rw [replace]
  -- The directory is there already.
  obtain ⟨hmade, hkept⟩ := Disk.makeDirectories_of_directory hready.leads hready.honest
  obtain ⟨bench₁, h₁, hkept₁⟩ : ∃ after, bench.doing (·.makeDirectories store.directory) =
      (.ok (), after) ∧ bench.disk.Kept after.disk := by
    refine ⟨⟨_, bench.events⟩, ?_, hkept⟩
    simp only [Workbench.doing, hmade]
    rfl
  simp only [h₁]
  rcases hstep (·.openTemporary store.directory)
      (fun disk hleads => by rw [Disk.openTemporary, hleads]; rfl) hkept₁ with
    ⟨cause, bench₂, h₂, hfault⟩ | ⟨bench₂, h₂, hkept₂⟩
  · exact Or.inl ⟨cause, bench₂, by simp only [h₂], hfault⟩
  simp only [h₂]
  rcases hstep (·.changeTemporary) (fun _ _ => rfl) hkept₂ with
    ⟨cause, bench₃, h₃, hfault⟩ | ⟨bench₃, h₃, hkept₃⟩
  · exact Or.inl ⟨cause, bench₃, by simp only [h₃], hfault⟩
  simp only [h₃]
  rw [← hkept₃.tree] at hopen
  rcases modeFor_cases (hready.kept hkept₃) hname hfits hopen with hfault | ⟨bench₄, h₄, hkept₄⟩
  · obtain ⟨cause, bench₄, h₄, hfault⟩ := hfault.of_kept hkept₃
    exact Or.inl ⟨cause, bench₄, by simp only [h₄], hfault⟩
  simp only [h₄]
  replace hkept₄ := hkept₃.trans hkept₄
  rcases hstep (·.changeTemporary) (fun _ _ => rfl) hkept₄ with
    ⟨cause, bench₅, h₅, hfault⟩ | ⟨bench₅, h₅, hkept₅⟩
  · exact Or.inl ⟨cause, bench₅, by simp only [h₅], hfault⟩
  simp only [h₅, hkept₃.tree]
  rw [hkept₃.tree, ← hkept₅.tree] at hopen
  -- Only the last step touches the tree.
  have hready₅ := hready.kept hkept₅
  have hput := FileTree.replaceEntry_join hready₅.leads hname hready₅.linkless hfits
    hopen.isDirectoryAt source.toUTF8 (modeAt bench.disk.tree root name)
  simp only [Workbench.doing, Disk.persist, hput, Except.map]
  have hperform := bench₅.disk.perform_cases (.ok ((), bench₅.disk.tree.put (root ++ [name])
    (.file source.toUTF8 (modeAt bench.disk.tree root name))))
  generalize bench₅.disk.perform _ = performed at hperform ⊢
  obtain ⟨answer, disk⟩ := performed
  rcases hperform with
    ⟨cause, hfault, rfl, hkept⟩ | ⟨cause, hop, -⟩ | ⟨_, tree, hop, rfl, hkept⟩
  · exact Or.inl (Workbench.Interrupted.of_kept hkept₅
      ⟨cause, ⟨disk, bench₅.events⟩, rfl, hfault, hkept⟩)
  · cases hop
  · cases hop
    rw [hkept₅.tree] at hkept
    exact Or.inr ⟨⟨disk, bench₅.events⟩, rfl, hkept₅.trans_tree hkept⟩

/-! ## Carrying out a plan -/

theorem refine_cases (a : Artifact) (outcome : WriteOutcome)
    (hready : Ready store.directory root bench.disk) (hname : Path.IsName (fileNameOf slug))
    (howned : outcome = .updated → ∃ text,
      slotText store.directory bench.disk.tree root slug = .ok text) :
    bench.Interrupted (refine (store.artifactPath slug) a outcome bench) ∨
      ∃ answer after, refine (store.artifactPath slug) a outcome bench = (.ok answer, after) ∧
        bench.disk.Kept after.disk ∧
        if outcome = .updated ∧
          slotText store.directory bench.disk.tree root slug = .ok a.source
        then answer = .unchanged else answer = outcome := by
  by_cases houtcome : outcome = .updated
  · obtain ⟨text, htext⟩ := howned houtcome
    obtain ⟨answer, disk, hread⟩ : ∃ answer disk,
        bench.disk.readText (store.artifactPath slug) = (answer, disk) := ⟨_, _, rfl⟩
    obtain ⟨htells, hkept⟩ := hready.readText hname hread
    rw [htext] at htells
    simp only [refine, houtcome, if_true, Workbench.doing, hread, htext]
    rcases htells with rfl | ⟨cause, hfault, rfl⟩
    · right
      by_cases hsame : text = a.source
      · exact ⟨.unchanged, ⟨disk, bench.events⟩, by simp [Except.mapError, hsame], hkept,
          by simp [hsame]⟩
      · exact ⟨.updated, ⟨disk, bench.events⟩, by simp [Except.mapError, hsame], hkept,
          by simp [hsame]⟩
    · exact Or.inl ⟨cause, ⟨disk, bench.events⟩, rfl, hfault, hkept⟩
  · rw [refine, if_neg houtcome]
    exact Or.inr ⟨outcome, bench, rfl, Disk.Kept.refl _, by simp [houtcome]⟩

/-- What a write did that put a spec into a place: the text was there already, or it is there now. -/
inductive Stores (store : Store) (spec : AgentSpec) (root : Location) (tree : FileTree) :
    Written → FileTree → Prop where
  | unchanged (a : Artifact) :
    Slug.Valid a.slug.toList → spec.renderAs a.slug = .ok a →
      Placed store.policy spec.name (slotAt store.directory tree root) a.slug .updated →
      slotText store.directory tree root a.slug = .ok a.source →
      Stores store spec root tree ⟨a.slug, store.artifactPath a.slug, a.digest, .unchanged⟩ tree
  | replaced (a : Artifact) (outcome : WriteOutcome) :
    Slug.Valid a.slug.toList → spec.renderAs a.slug = .ok a →
      Placed store.policy spec.name (slotAt store.directory tree root) a.slug outcome →
      (outcome = .updated → slotText store.directory tree root a.slug ≠ .ok a.source) →
      Stores store spec root tree ⟨a.slug, store.artifactPath a.slug, a.digest, outcome⟩
        (tree.put (root ++ [a.fileName])
          (.file a.source.toUTF8 (modeAt tree root a.fileName)))

theorem commit_cases (hready : Ready store.directory root bench.disk) {a : Artifact}
    {outcome : WriteOutcome} (hrender : spec.renderAs a.slug = .ok a)
    (hvalid : Slug.Valid a.slug.toList)
    (hplaced : Placed store.policy spec.name (slotAt store.directory bench.disk.tree root) a.slug
      outcome) :
    bench.Interrupted (store.commit a outcome bench) ∨
      ∃ written tree after, store.commit a outcome bench = (.ok written, after) ∧
        Stores store spec root bench.disk.tree written tree ∧
        Disk.Kept { bench.disk with tree } after.disk := by
  have hfile := (Artifact.names_of_renderAs hrender).2
  obtain ⟨hfits, hopen⟩ := hplaced.open hready.linkless
  rw [commit, hfile]
  rcases refine_cases a outcome hready hvalid.isName (by
      rintro rfl
      obtain ⟨text, htext, -⟩ := slotAt_eq_owned hplaced.owned_of_updated
      exact ⟨text, htext⟩) with ⟨cause, after, h₁, hfault⟩ | ⟨answer, bench₁, h₁, hkept₁, hanswer⟩
  · rw [artifactPath] at h₁
    exact Or.inl ⟨cause, after, by simp only [h₁], hfault⟩
  rw [artifactPath] at h₁
  simp only [h₁]
  -- A text that is there already is not written again.
  split at hanswer
  · rename_i hsame
    obtain ⟨rfl, htext⟩ := hsame
    subst hanswer
    rw [if_pos rfl]
    exact Or.inr ⟨_, _, _, rfl, .unchanged a hvalid hrender hplaced htext, hkept₁⟩
  · rename_i hdiffers
    subst hanswer
    rw [if_neg hplaced.ne_unchanged]
    rcases replace_cases (hready.kept hkept₁) hvalid.isName hfits (hkept₁.tree ▸ hopen) a.source
      with hfault | ⟨bench₂, h₂, hkept₂⟩
    · obtain ⟨cause, after, h₂, hfault⟩ := hfault.of_kept hkept₁
      exact Or.inl ⟨cause, after, by simp only [h₂], hfault⟩
    · simp only [h₂]
      rw [hkept₁.tree, ← hfile] at hkept₂
      exact Or.inr ⟨_, _, _, rfl,
        .replaced a answer hvalid hrender hplaced fun houtcome htext => hdiffers ⟨houtcome, htext⟩,
        hkept₁.trans_tree hkept₂⟩

/-- A write stores its spec, or says why it changed nothing. -/
theorem write_cases (store : Store) (spec : AgentSpec) (bench : Workbench)
    (hready : Ready store.directory root bench.disk) :
    (∃ cause after, store.write spec bench = (.error cause, after) ∧
        bench.disk.Kept after.disk ∧
        (spec.render = .error cause ∨
          Refused store.policy spec.name (slotAt store.directory bench.disk.tree root) cause ∨
          ∃ fault, some fault ∈ bench.disk.faults ∧ cause = .file fault)) ∨
      ∃ written tree after, store.write spec bench = (.ok written, after) ∧
        Stores store spec root bench.disk.tree written tree ∧
        Disk.Kept { bench.disk with tree } after.disk := by
  rw [write]
  cases hrender : spec.render with
  | error cause => exact Or.inl ⟨cause, bench, rfl, Disk.Kept.refl _, Or.inl rfl⟩
  | ok artifact =>
    obtain ⟨hslug, -⟩ := Artifact.renderAs_ok hrender
    obtain ⟨answer, after, hplan⟩ : ∃ answer after,
        store.plan spec artifact bench = (answer, after) := ⟨_, _, rfl⟩
    have hsettles := (plan_settles store bench hrender hready.honest).congr fun k =>
      (hready.slotOn_eq (valid_candidate (valid_slugify hslug) k).isName).symm
    rw [hplan] at hsettles
    obtain ⟨hkept, ⟨slug, a, outcome, rfl, ha, hplaced⟩ | ⟨cause, rfl, hreason⟩⟩ := hsettles
    · obtain ⟨-, l, -, heq⟩ := Artifact.renderAs_ok ha
      obtain rfl : slug = a.slug := by rw [heq]
      rw [← hkept.tree] at hplaced
      simp only [hplan]
      rcases commit_cases (hready.kept hkept) ha (valid_of_placed hslug hplaced) hplaced
        with ⟨cause, last, hcommit, hfault, hlast⟩ | ⟨written, tree, last, hcommit, hstores, hlast⟩
      · exact Or.inl ⟨_, last, hcommit, hkept.trans hlast,
          Or.inr (Or.inr ⟨cause, hkept.faults hfault, rfl⟩)⟩
      · rw [hkept.tree] at hstores
        exact Or.inr ⟨written, tree, last, hcommit, hstores, hkept.trans_tree hlast⟩
    · simp only [hplan]
      exact Or.inl ⟨cause, after, rfl, hkept, Or.inr hreason⟩

/-- On a disk without faults, a spec that can be rendered goes to the place that there is for it. -/
theorem write_of_placed (store : Store) (bench : Workbench)
    (hready : Ready store.directory root bench.disk) (hfaults : bench.disk.faults = [])
    {a : Artifact} (hrender : spec.render = .ok a) {outcome : WriteOutcome}
    (hplaced : Placed store.policy spec.name (slotAt store.directory bench.disk.tree root) slug
      outcome) :
    ∃ written tree after, store.write spec bench = (.ok written, after) ∧
      Stores store spec root bench.disk.tree written tree ∧
      Disk.Kept { bench.disk with tree } after.disk := by
  rcases write_cases store spec bench hready with ⟨cause, after, -, -, hcause⟩ | hstores
  · rcases hcause with hcause | hcause | ⟨fault, hfault, -⟩
    · rw [hrender] at hcause
      cases hcause
    · exact absurd hcause hplaced.not_refused
    · rw [hfaults] at hfault
      cases hfault
  · exact hstores

/-! ## Writing what is there -/

theorem readText_of_faultless {disk : Disk} {path text : String} (hfaults : disk.faults = [])
    (h : disk.tree.readText disk.home path = .ok text) :
    disk.readText path = (.ok text, disk) := by
  obtain ⟨tree, home, faults⟩ := disk
  obtain rfl : faults = [] := hfaults
  rw [Disk.readText, h]
  rfl

theorem commit_unchanged {a : Artifact} (hfaults : bench.disk.faults = [])
    (h : bench.disk.tree.readText bench.disk.home (Path.join store.directory a.fileName) =
      .ok a.source) :
    ∃ final, store.commit a .updated bench =
        (.ok ⟨a.slug, Path.join store.directory a.fileName, a.digest, .unchanged⟩, final) ∧
      final.disk = bench.disk := by
  have hrefine : refine (Path.join store.directory a.fileName) a .updated bench =
      (.ok .unchanged, bench) := by
    simp [refine, Workbench.doing, readText_of_faultless hfaults h, Except.mapError]
  simp [commit, hrefine, Workbench.log]

/-- A write that finds its text in its place touches nothing. -/
theorem write_unchanged (store : Store) (hfaults : bench.disk.faults = []) {a b : Artifact}
    (hrendered : spec.render = .ok b) (hrender : spec.renderAs a.slug = .ok a)
    (hplaced : Placed store.policy spec.name (slotOn store.directory bench.disk) a.slug .updated)
    (htext : bench.disk.tree.readText bench.disk.home (store.artifactPath a.slug) =
      .ok a.source) :
    ∃ final, store.write spec bench =
        (.ok ⟨a.slug, store.artifactPath a.slug, a.digest, .unchanged⟩, final) ∧
      final.disk = bench.disk := by
  obtain ⟨answer, mid, hplan⟩ : ∃ answer mid, store.plan spec b bench = (answer, mid) :=
    ⟨_, _, rfl⟩
  have hhonest : bench.disk.Honest := by simp [Disk.Honest, hfaults]
  have hsettles := plan_settles store bench hrendered hhonest
  rw [hplan] at hsettles
  obtain ⟨hkept, ⟨slug, c, outcome, rfl, hc, hplaced'⟩ | ⟨cause, -, hrefused | ⟨_, hfault, -⟩⟩⟩ :=
    hsettles
  · obtain ⟨rfl, rfl⟩ := hplaced'.unique hplaced
    obtain rfl : c = a := Except.ok.inj (hc.symm.trans hrender)
    have hdisk := hkept.eq hfaults
    rw [artifactPath, ← (Artifact.names_of_renderAs hrender).2, ← hdisk] at htext
    obtain ⟨final, hcommit, hfinal⟩ := commit_unchanged (hdisk ▸ hfaults) htext
    refine ⟨final, ?_, hfinal.trans hdisk⟩
    rw [artifactPath, ← (Artifact.names_of_renderAs hrender).2]
    simp only [write, hrendered, hplan, hcommit]
  · exact absurd hrefused hplaced.not_refused
  · rw [hfaults] at hfault
    cases hfault

/-! ## After a write -/

theorem Stores.placed {written : Written} (h : Stores store spec root tree written after) :
    ∃ outcome, Placed store.policy spec.name (slotAt store.directory tree root) written.slug
        outcome ∧ (written.outcome = .overwrote ↔ outcome = .overwrote) := by
  cases h with
  | unchanged a _ _ hplaced => exact ⟨_, hplaced, by simp⟩
  | replaced a outcome _ _ hplaced => exact ⟨outcome, hplaced, Iff.rfl⟩

theorem Stores.valid {written : Written} (h : Stores store spec root tree written after) :
    Slug.Valid written.slug.toList := by
  cases h with
  | unchanged a hvalid => exact hvalid
  | replaced a outcome hvalid => exact hvalid

/-- The text of the spec is in its place, and every other place is as it was. -/
theorem Stores.slotText_eq {written : Written} (hlinkless : tree.Linkless root)
    (h : Stores store spec root tree written after) :
    ∃ a, spec.renderAs written.slug = .ok a ∧
      ∀ slug, slotText store.directory after root slug =
        if slug = written.slug then .ok a.source else slotText store.directory tree root slug := by
  cases h with
  | unchanged a _ hrender hplaced htext =>
    refine ⟨a, hrender, fun slug => ?_⟩
    split
    · rename_i hslug
      rw [hslug, htext]
    · rfl
  | replaced a outcome _ hrender hplaced _ =>
    refine ⟨a, hrender, fun slug => ?_⟩
    have hfile := (Artifact.names_of_renderAs hrender).2
    obtain ⟨hfits, -⟩ := hplaced.open hlinkless
    simp only [slotText, hfile, FileTree.entryText_put_entry, Artifact.fileNameOf_inj]
    by_cases hslug : slug = a.slug
    · simp only [hslug, hfits, if_true]
    · simp only [hslug, if_false]

theorem Stores.slotAt_eq {written : Written} (hlinkless : tree.Linkless root)
    (h : Stores store spec root tree written after) (slug : String) :
    slotAt store.directory after root slug =
      if slug = written.slug then .owned spec.name else slotAt store.directory tree root slug := by
  obtain ⟨a, ha, htext⟩ := h.slotText_eq hlinkless
  rw [slotAt, htext]
  split
  · rw [Slot.ofText, Artifact.parse_name_of_renderAs ha]
  · rfl

theorem Stores.get?_of_ne {written : Written} (h : Stores store spec root tree written after)
    {loc : Location} (hloc : loc ≠ root ++ [fileNameOf written.slug]) :
    after.get? loc = tree.get? loc := by
  cases h with
  | unchanged => rfl
  | replaced a outcome _ hrender =>
    rw [FileTree.get?_put (by simp), (Artifact.names_of_renderAs hrender).2, if_neg hloc]

theorem Stores.get?_eq {written : Written} (h : Stores store spec root tree written after)
    (hname : name ≠ fileNameOf written.slug) :
    after.get? (root ++ [name]) = tree.get? (root ++ [name]) :=
  h.get?_of_ne (by simpa using hname)

theorem Stores.path_eq {written : Written} (h : Stores store spec root tree written after) :
    written.path = store.artifactPath written.slug := by
  cases h <;> rfl

theorem Stores.digest_eq {written : Written} (h : Stores store spec root tree written after) :
    written.digest = spec.digest := by
  cases h with
  | unchanged a _ hrender => exact Artifact.digest_of_renderAs hrender
  | replaced a _ _ hrender => exact Artifact.digest_of_renderAs hrender

/-- The file of the artifact is in its place, with the mode that the place gives it. -/
theorem Stores.get?_place {written : Written} (h : Stores store spec root tree written after) :
    ∃ a, spec.renderAs written.slug = .ok a ∧
      after.get? (root ++ [fileNameOf written.slug]) =
        some (.file a.source.toUTF8 (modeAt tree root (fileNameOf written.slug))) := by
  cases h with
  | unchanged a _ hrender _ htext =>
    obtain ⟨mode, hnode⟩ := FileTree.entryText_eq_ok_iff.mp (slotText_eq_ok_iff.mp htext).2
    exact ⟨a, hrender, by simp only [hnode, modeAt]⟩
  | replaced a outcome _ hrender =>
    refine ⟨a, hrender, ?_⟩
    rw [(Artifact.names_of_renderAs hrender).2, FileTree.get?_put_entry, if_pos rfl]

theorem Stores.ready {written : Written} {disk last : Disk}
    (hready : Ready store.directory root disk)
    (h : Stores store spec root disk.tree written after)
    (hkept : Disk.Kept { disk with tree := after } last) : Ready store.directory root last := by
  refine Ready.kept ?_ hkept
  cases h with
  | unchanged => exact hready
  | replaced a outcome _ hrender hplaced _ =>
    have hfile := (Artifact.names_of_renderAs hrender).2
    have hdirectory : disk.tree.isDirectoryAt (root ++ [a.fileName]) = false := by
      rw [hfile]
      exact (hplaced.open hready.linkless).2.isDirectoryAt
    exact ⟨FileTree.directory_put hready.leads hready.linkless hdirectory _,
      FileTree.linkless_put hready.linkless _ _, hready.honest⟩

end Store
end Agentry
