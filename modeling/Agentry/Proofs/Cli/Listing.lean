import Agentry.Cli.Listing
import Agentry.Proofs.Store.Slot
import Agentry.Proofs.Text.ByteOrder
import Mathlib.Data.List.Nodup
/-!
# Listing a directory

The entries of a directory come in any order, and some of their names may be no texts. A listing
reads the files whose names end as those of artifacts do. Its answer depends on the directory alone:
it has one row for each of these files, which says what the text of the file reads back to, and the
slugs of the rows increase. There is no answer when one of the files cannot be read, or an entry of
the directory not be told.
-/
namespace Agentry

theorem Store.readPath_cases (path : String) (bench : Workbench) :
    bench.disk.Kept (readPath path bench).2.disk ∧
      ((∃ text, bench.disk.tree.readText bench.disk.home path = .ok text ∧
          (readPath path bench).1 = .ok (Artifact.parse text)) ∨
        ∃ cause, (some cause ∈ bench.disk.faults ∨
            bench.disk.tree.readText bench.disk.home path = .error cause) ∧
          (readPath path bench).1 = .error (.file cause)) := by
  have hlook := bench.disk.look_tells (bench.disk.tree.readText bench.disk.home path)
  rw [readPath, Workbench.doing]
  simp only [Disk.readText]
  generalize bench.disk.look (bench.disk.tree.readText bench.disk.home path) = looked at hlook ⊢
  obtain ⟨answer, disk⟩ := looked
  obtain ⟨htells, hkept⟩ := hlook
  cases answer with
  | ok text =>
    refine ⟨hkept, Or.inl ⟨text, ?_, rfl⟩⟩
    rcases htells with htruth | ⟨cause, -, hcause⟩
    · exact htruth.symm
    · cases hcause
  | error cause =>
    refine ⟨hkept, Or.inr ⟨cause, ?_, rfl⟩⟩
    rcases htells with htruth | ⟨fault, hfault, hcause⟩
    · exact Or.inr htruth.symm
    · cases hcause
      exact Or.inl hfault

namespace Cli

/-- What the system said when an entry or a file could not be read. -/
inductive ListingError.Cites (cause : IoError) : ListingError → Prop
  | entry : Cites cause (.entry cause)
  | artifact : Cites cause (.artifact (.file cause))

/-! ## Entries -/

/-- Names in some order, each of them once. Those that are texts are the names in a directory. -/
structure Enumerates (tree : FileTree) (root : Location) (entries : List ByteArray) : Prop where
  nodup : entries.Nodup
  mem_iff : ∀ name : String, name.toUTF8 ∈ entries ↔ tree.get? (root ++ [name]) ≠ none

/-- What the path of a slug's file leads to. -/
def listedText (directory : String) (disk : Disk) (slug : String) : Except IoError String :=
  disk.tree.readText disk.home (Path.join directory (Artifact.fileNameOf slug))

/-- Every file of a slug in a directory is readable. -/
def Legible (directory : String) (root : Location) (disk : Disk) : Prop :=
  ∀ slug, disk.tree.get? (root ++ [Artifact.fileNameOf slug]) ≠ none →
    ∃ text, listedText directory disk slug = .ok text

structure Describes (agent : ListedAgent) (parsed : ParsedArtifact) : Prop where
  name : agent.name = parsed.spec.name
  version : agent.version = parsed.spec.version
  digest : agent.digest = parsed.digest
  issues : agent.issues = parsed.issues.length

/-- The rows for a directory. -/
structure Lists (directory : String) (root : Location) (disk : Disk)
    (agents : List ListedAgent) : Prop where
  slugs : ∀ slug, slug ∈ agents.map (·.slug) ↔
    disk.tree.get? (root ++ [Artifact.fileNameOf slug]) ≠ none
  rows : ∀ agent ∈ agents, ∃ text, listedText directory disk agent.slug = .ok text ∧
    Describes agent (Artifact.parse text)
  increasing : agents.Pairwise fun a b => a.slug.toUTF8.toList < b.slug.toUTF8.toList

variable {directory name slug : String} {root : Location} {tree : FileTree} {disk after : Disk}
  {bench : Workbench} {entry : ByteArray} {entries : List ByteArray}
  {slugs : List String} {agent other : ListedAgent} {agents others : List ListedAgent}
  {parsed : ParsedArtifact}

theorem slugOfFile_eq_some_iff : slugOfFile name = some slug ↔ name = Artifact.fileNameOf slug := by
  have hsuffix : Artifact.fileSuffix.toList.isSuffixOf name.toList = true ↔
      Artifact.fileSuffix.toList <:+ name.toList := List.isSuffixOf_iff_suffix
  simp only [slugOfFile]
  constructor
  · intro h
    split at h
    · rename_i hends
      obtain ⟨front, hfront⟩ := hsuffix.mp hends
      cases h
      rw [← String.toList_inj, Artifact.fileNameOf, String.toList_append, String.toList_ofList,
        ← hfront]
      simp
    · cases h
  · intro h
    have hlist : name.toList = slug.toList ++ Artifact.fileSuffix.toList := by
      rw [h, Artifact.fileNameOf, String.toList_append]
    rw [if_pos (hsuffix.mpr ⟨slug.toList, hlist.symm⟩), hlist]
    simp

theorem artifactOf_eq_some_iff : artifactOf entry = some (name, slug) ↔
    entry = name.toUTF8 ∧ name = Artifact.fileNameOf slug := by
  constructor
  · intro h
    obtain ⟨text, htext, hslug⟩ := Option.bind_eq_some_iff.mp h
    obtain ⟨found, hfound, heq⟩ := Option.map_eq_some_iff.mp hslug
    cases heq
    exact ⟨FileTree.fromUTF8?_eq_some_iff.mp htext, slugOfFile_eq_some_iff.mp hfound⟩
  · intro h
    obtain ⟨rfl, hname⟩ := h
    rw [artifactOf, FileTree.fromUTF8?_eq_some_iff.mpr rfl, Option.bind_some,
      slugOfFile_eq_some_iff.mpr hname, Option.map_some]

/-- The slugs of the artifacts among some entries. -/
def slugsOf (entries : List ByteArray) : List String :=
  entries.filterMap fun entry => (artifactOf entry).map (·.2)

theorem slugsOf_skip (hentry : artifactOf entry = none) (entries : List ByteArray) :
    slugsOf (entry :: entries) = slugsOf entries := by
  rw [slugsOf, List.filterMap_cons, hentry, Option.map_none, slugsOf]

theorem slugsOf_cons (hentry : artifactOf entry = some (name, slug)) (entries : List ByteArray) :
    slugsOf (entry :: entries) = slug :: slugsOf entries := by
  rw [slugsOf, List.filterMap_cons, hentry, Option.map_some, slugsOf]

theorem mem_slugsOf : slug ∈ slugsOf entries ↔ (Artifact.fileNameOf slug).toUTF8 ∈ entries := by
  rw [slugsOf, List.mem_filterMap]
  constructor
  · intro h
    obtain ⟨entry, hentry, hslug⟩ := h
    obtain ⟨⟨name, found⟩, hfound, rfl⟩ := Option.map_eq_some_iff.mp hslug
    obtain ⟨rfl, rfl⟩ := artifactOf_eq_some_iff.mp hfound
    exact hentry
  · intro h
    exact ⟨_, h, by rw [artifactOf_eq_some_iff.mpr ⟨rfl, rfl⟩, Option.map_some]⟩

theorem nodup_slugsOf (h : entries.Nodup) : (slugsOf entries).Nodup := by
  refine List.Nodup.filterMap ?_ h
  intro entry other slug hentry hother
  obtain ⟨⟨name, found⟩, hfound, rfl⟩ := Option.map_eq_some_iff.mp hentry
  obtain ⟨⟨name', found'⟩, hfound', hsame⟩ := Option.map_eq_some_iff.mp hother
  obtain ⟨rfl, rfl⟩ := artifactOf_eq_some_iff.mp hfound
  obtain ⟨rfl, rfl⟩ := artifactOf_eq_some_iff.mp hfound'
  rw [show found' = found from hsame]

theorem toUTF8_injective : Function.Injective String.toUTF8 :=
  fun _ _ h => String.toByteArray_inj.mp h

theorem nodup_eraseDups (names : List String) : names.eraseDups.Nodup := by
  -- What follows a name is the rest of the list without it, so the induction is on the length.
  induction hlength : names.length using Nat.strongRecOn generalizing names with
  | ind length ih =>
    cases names with
    | nil => exact List.nodup_nil
    | cons name rest =>
      have hshort : (rest.filter fun other => !other == name).length < length := by
        have hle := List.length_filter_le (fun other => !other == name) rest
        rw [← hlength, List.length_cons]
        omega
      rw [List.eraseDups_cons, List.nodup_cons, List.mem_eraseDups]
      exact ⟨by simp, ih _ hshort _ rfl⟩

theorem enumerates_names (tree : FileTree) (root : Location) :
    Enumerates tree root ((tree.names root).eraseDups.map String.toUTF8) where
  nodup := (nodup_eraseDups _).map toUTF8_injective
  mem_iff name := by
    rw [List.mem_map_of_injective toUTF8_injective, List.mem_eraseDups, FileTree.mem_names_iff]

theorem Enumerates.perm {others : List ByteArray} (h : Enumerates tree root entries)
    (hperm : others.Perm entries) : Enumerates tree root others where
  nodup := hperm.nodup_iff.mpr h.nodup
  mem_iff name := by rw [hperm.mem_iff, h.mem_iff]

/-! ## Reading -/

/-- The rows for the files of some slugs, in the same order. -/
structure Reads (directory : String) (disk : Disk) (slugs : List String)
    (agents : List ListedAgent) : Prop where
  slugs : agents.map (·.slug) = slugs
  rows : ∀ agent ∈ agents, ∃ text, listedText directory disk agent.slug = .ok text ∧
    Describes agent (Artifact.parse text)

/-- Why the files of some slugs are not all read. -/
def Hinders (directory : String) (disk : Disk) (slugs : List String) (cause : IoError) : Prop :=
  some cause ∈ disk.faults ∨ ∃ slug ∈ slugs, listedText directory disk slug = .error cause

theorem listedText_kept (h : disk.Kept after) (directory slug : String) :
    listedText directory after slug = listedText directory disk slug := by
  rw [listedText, listedText, h.tree, h.home]

theorem describes_ofParsed (slug : String) (parsed : ParsedArtifact) :
    Describes (.ofParsed slug parsed) parsed :=
  ⟨rfl, rfl, rfl, rfl⟩

theorem Reads.of_kept (hkept : disk.Kept after) (h : Reads directory after slugs agents) :
    Reads directory disk slugs agents where
  slugs := h.slugs
  rows agent hagent := by
    rw [← listedText_kept hkept]
    exact h.rows agent hagent

theorem Hinders.of_kept {cause : IoError} (hkept : disk.Kept after)
    (h : Hinders directory after slugs cause) : Hinders directory disk slugs cause := by
  rcases h with hfault | ⟨slug, hslug, htext⟩
  · exact Or.inl (hkept.faults hfault)
  · rw [listedText_kept hkept] at htext
    exact Or.inr ⟨slug, hslug, htext⟩

theorem Reads.cons {text : String} (htext : listedText directory disk slug = .ok text)
    (h : Reads directory disk slugs agents) :
    Reads directory disk (slug :: slugs) (.ofParsed slug (Artifact.parse text) :: agents) where
  slugs := by rw [← h.slugs, List.map_cons, ListedAgent.ofParsed]
  rows agent hagent := by
    rcases List.mem_cons.mp hagent with rfl | hrest
    · exact ⟨text, htext, describes_ofParsed slug _⟩
    · exact h.rows agent hrest

theorem Hinders.cons {cause : IoError} (h : Hinders directory disk slugs cause) (slug : String) :
    Hinders directory disk (slug :: slugs) cause :=
  h.imp_right fun ⟨other, hother, htext⟩ => ⟨other, List.mem_cons_of_mem slug hother, htext⟩

theorem advance_cases (bench : Workbench) :
    bench.disk.Kept (advance bench).2.disk ∧
      ((advance bench).1 = .ok () ∨
        ∃ cause, some cause ∈ bench.disk.faults ∧ (advance bench).1 = .error (.entry cause)) := by
  obtain ⟨htells, hkept⟩ := bench.disk.look_tells (.ok ())
  refine ⟨hkept, ?_⟩
  simp only [advance]
  rcases htells with hanswer | ⟨cause, hfault, hanswer⟩
  · rw [hanswer]
    exact Or.inl rfl
  · rw [hanswer]
    exact Or.inr ⟨cause, hfault, rfl⟩

/-- What reading the files of some slugs comes to. -/
inductive Comes (directory : String) (disk : Disk) (slugs : List String) :
    Except ListingError (List ListedAgent) → Prop
  | reads {agents : List ListedAgent} (h : Reads directory disk slugs agents) :
    Comes directory disk slugs (.ok agents)
  | hindered {error : ListingError} {cause : IoError} (herror : error.Cites cause)
    (h : Hinders directory disk slugs cause) : Comes directory disk slugs (.error error)

theorem Comes.of_kept {answer : Except ListingError (List ListedAgent)} (hkept : disk.Kept after)
    (h : Comes directory after slugs answer) : Comes directory disk slugs answer := by
  cases h with
  | reads h => exact .reads (h.of_kept hkept)
  | hindered herror h => exact .hindered herror (h.of_kept hkept)

theorem readListed_comes (directory : String) (entries : List ByteArray) (bench : Workbench) :
    Comes directory bench.disk (slugsOf entries) (readListed directory entries bench).1 := by
  induction entries generalizing bench with
  | nil =>
    obtain ⟨-, hadvance⟩ := advance_cases bench
    rw [readListed]
    generalize advance bench = step at *
    obtain ⟨answer, bench'⟩ := step
    rcases hadvance with rfl | ⟨cause, hfault, rfl⟩
    · exact .reads ⟨rfl, fun _ hagent => by cases hagent⟩
    · exact .hindered .entry (Or.inl hfault)
  | cons entry rest ih =>
    obtain ⟨hstep, hadvance⟩ := advance_cases bench
    rw [readListed]
    generalize advance bench = step at *
    obtain ⟨answer, bench'⟩ := step
    rcases hadvance with rfl | ⟨cause, hfault, rfl⟩
    swap
    · exact .hindered .entry (Or.inl hfault)
    refine Comes.of_kept hstep ?_
    cases hentry : artifactOf entry with
    | none =>
      rw [slugsOf_skip hentry]
      exact ih bench'
    | some artifact =>
      obtain ⟨name, slug⟩ := artifact
      obtain ⟨-, rfl⟩ := artifactOf_eq_some_iff.mp hentry
      obtain ⟨hkept, hread⟩ :=
        Store.readPath_cases (Path.join directory (Artifact.fileNameOf slug)) bench'
      rw [slugsOf_cons hentry]
      simp only
      generalize Store.readPath (Path.join directory (Artifact.fileNameOf slug)) bench' = first at *
      obtain ⟨answer, bench''⟩ := first
      rcases hread with ⟨text, htext, rfl⟩ | ⟨cause, hfault | htext, rfl⟩
      · have hrest := ih bench''
        simp only
        generalize readListed directory rest bench'' = more at hrest ⊢
        obtain ⟨answer, last⟩ := more
        cases hrest.of_kept hkept with
        | reads h => exact .reads (h.cons htext)
        | hindered herror h => exact .hindered herror (h.cons slug)
      · exact .hindered .artifact (Or.inl hfault)
      · exact .hindered .artifact (Or.inr ⟨slug, List.mem_cons_self, htext⟩)

/-! ## Rows -/

/-- The rows of all entries of a directory, sorted, are the rows for the directory. -/
theorem Reads.lists (h : Reads directory disk (slugsOf entries) agents)
    (henum : Enumerates disk.tree root entries) :
    Lists directory root disk (sortedBySlug agents) where
  slugs slug := by
    have hperm : (sortedBySlug agents).Perm agents := List.mergeSort_perm _ _
    rw [(hperm.map _).mem_iff, h.slugs, mem_slugsOf, henum.mem_iff]
  rows agent hagent := h.rows agent ((List.mergeSort_perm _ _).mem_iff.mp hagent)
  increasing := Text.increasing_mergeSort ListedAgent.slug (h.slugs ▸ nodup_slugsOf henum.nodup)

theorem Lists.legible (h : Lists directory root disk agents) : Legible directory root disk := by
  intro slug hslug
  obtain ⟨agent, hagent, rfl⟩ := List.mem_map.mp ((h.slugs slug).mpr hslug)
  obtain ⟨text, htext, -⟩ := h.rows agent hagent
  exact ⟨text, htext⟩

theorem Describes.unique (h : Describes agent parsed) (h' : Describes other parsed)
    (hslug : agent.slug = other.slug) : agent = other := by
  obtain ⟨slug, name, version, digest, issues⟩ := agent
  obtain ⟨slug', name', version', digest', issues'⟩ := other
  obtain ⟨rfl, rfl, rfl, rfl⟩ := h
  obtain ⟨rfl, rfl, rfl, rfl⟩ := h'
  obtain rfl : slug = slug' := hslug
  rfl

theorem Lists.mem_of_mem (h : Lists directory root disk agents)
    (h' : Lists directory root disk others) (hagent : agent ∈ agents) : agent ∈ others := by
  have hslug := (h.slugs agent.slug).mp (List.mem_map.mpr ⟨agent, hagent, rfl⟩)
  obtain ⟨other, hother, hsame⟩ := List.mem_map.mp ((h'.slugs agent.slug).mpr hslug)
  obtain ⟨text, htext, hdescribes⟩ := h.rows agent hagent
  obtain ⟨text', htext', hdescribes'⟩ := h'.rows other hother
  rw [hsame, htext] at htext'
  cases htext'
  rwa [hdescribes.unique hdescribes' hsame.symm]

theorem Lists.nodup (h : Lists directory root disk agents) : agents.Nodup := by
  refine h.increasing.imp ?_
  intro a b hlt heq
  exact List.lt_irrefl _ (heq ▸ hlt)

/-- A directory has one list of rows. -/
theorem Lists.unique (h : Lists directory root disk agents)
    (h' : Lists directory root disk others) : agents = others := by
  have hperm : agents.Perm others := (List.perm_ext_iff_of_nodup h.nodup h'.nodup).mpr
    fun agent => ⟨h.mem_of_mem h', h'.mem_of_mem h⟩
  refine hperm.eq_of_pairwise ?_ h.increasing h'.increasing
  intro a b _ _ hab hba
  exact absurd hba (List.lt_asymm hab)

/-! ## Listing -/

theorem scan_cases (directory : String) (bench : Workbench)
    (henum : Enumerates bench.disk.tree root entries) :
    (∃ agents, (scan directory entries bench).1 = .ok agents ∧
        Lists directory root bench.disk agents) ∨
      ∃ error cause, (scan directory entries bench).1 = .error error ∧ error.Cites cause ∧
        (some cause ∈ bench.disk.faults ∨ ¬Legible directory root bench.disk) := by
  have hread := readListed_comes directory entries bench
  rw [scan]
  generalize readListed directory entries bench = read at hread ⊢
  obtain ⟨answer, last⟩ := read
  cases hread with
  | reads h => exact Or.inl ⟨_, rfl, h.lists henum⟩
  | hindered herror h =>
    refine Or.inr ⟨_, _, rfl, herror, ?_⟩
    rcases h with hfault | ⟨slug, hslug, htext⟩
    · exact Or.inl hfault
    refine Or.inr fun hlegible => ?_
    obtain ⟨text, hok⟩ := hlegible slug ((henum.mem_iff _).mp (mem_slugsOf.mp hslug))
    rw [htext] at hok
    cases hok

theorem entryNames_eq (hroot : disk.tree.directory disk.home directory = .ok root) :
    entryNames directory disk =
      ((disk.look (.ok ())).1.map fun _ => (disk.tree.names root).eraseDups.map String.toUTF8,
        (disk.look (.ok ())).2) := by
  obtain ⟨tree, home, faults⟩ := disk
  dsimp only at hroot
  rw [entryNames, hroot]
  rcases faults with _ | ⟨_ | cause, faults⟩ <;> rfl

/-- Where every file of a slug can be read there is one list of rows, which a listing in any order
answers, unless a fault gets in its way. Elsewhere a listing in any order fails. -/
theorem scan_inAnyOrder (hroot : disk.tree.directory disk.home directory = .ok root) :
    (∃ entries, Enumerates disk.tree root entries ∧
      ∀ after, disk.look (.ok ()) = (.ok (), after) →
        scanRegistry directory disk =
          let (answer, bench) := scan directory entries ⟨after, []⟩
          (answer.mapError ListingError.trouble, bench.disk)) ∧
    (∀ cause after, disk.look (.ok ()) = (.error cause, after) →
      scanRegistry directory disk =
        (if cause = .notFound then .ok []
          else .error (.within ("failed to read " ++ directory) (.plain cause.message)), after)) ∧
    (Legible directory root disk → ∃ agents, Lists directory root disk agents ∧
      ∀ entries, Enumerates disk.tree root entries →
        (scan directory entries ⟨disk, []⟩).1 = .ok agents ∨
          ∃ error cause, some cause ∈ disk.faults ∧ error.Cites cause ∧
            (scan directory entries ⟨disk, []⟩).1 = .error error) ∧
    (¬Legible directory root disk → ∀ entries, Enumerates disk.tree root entries →
      ∃ error cause, error.Cites cause ∧
        (scan directory entries ⟨disk, []⟩).1 = .error error) := by
  have hnames := enumerates_names disk.tree root
  refine ⟨⟨_, hnames, ?_⟩, ?_, ?_, ?_⟩
  · intro after hopen
    rw [scanRegistry, entryNames_eq hroot, hopen]
    rfl
  · intro cause after hopen
    rw [scanRegistry, entryNames_eq hroot, hopen]
    cases cause <;> rfl
  · intro hlegible
    -- The list is the one that is found where nothing fails by itself.
    obtain ⟨agents, hlists⟩ : ∃ agents, Lists directory root disk agents := by
      rcases scan_cases directory ⟨disk.mended, []⟩ hnames with
        ⟨agents, -, hlists⟩ | ⟨error, cause, -, -, hfault | hillegible⟩
      · exact ⟨agents, hlists.slugs, hlists.rows, hlists.increasing⟩
      · exact absurd hfault List.not_mem_nil
      · exact absurd hlegible hillegible
    refine ⟨agents, hlists, fun entries henum => ?_⟩
    rcases scan_cases directory ⟨disk, []⟩ henum with
      ⟨others, hanswer, hothers⟩ | ⟨error, cause, hanswer, hcites, hfault | hillegible⟩
    · rw [hothers.unique hlists] at hanswer
      exact Or.inl hanswer
    · exact Or.inr ⟨error, cause, hfault, hcites, hanswer⟩
    · exact absurd hlegible hillegible
  · intro hillegible entries henum
    rcases scan_cases directory ⟨disk, []⟩ henum with
      ⟨agents, -, hlists⟩ | ⟨error, cause, hanswer, hcites, -⟩
    · exact absurd hlists.legible hillegible
    · exact ⟨error, cause, hcites, hanswer⟩

/-- A directory with two artifacts, one of them a link to the other, and a file of octets. -/
def linkedDisk : Disk :=
  .sound ⟨[(["agents"], .directory directoryMode),
    (["agents", "b.agent.rs"], .file "name: \"Bee\"".toUTF8 0o644),
    (["agents", "notes"], .file ⟨#[0xff]⟩ 0o644),
    (["agents", "a.agent.rs"], .link "b.agent.rs")]⟩ []

theorem names_linkedDisk : linkedDisk.tree.names ["agents"] =
    [Artifact.fileNameOf "b", "notes", Artifact.fileNameOf "a"] := by
  decide +kernel

theorem legible_linkedDisk : Legible "agents" ["agents"] linkedDisk := by
  intro slug hslug
  have hmem := FileTree.mem_names_iff.mpr hslug
  simp only [names_linkedDisk, List.mem_cons, List.not_mem_nil, or_false,
    Artifact.fileNameOf_inj] at hmem
  rcases hmem with rfl | hnotes | rfl
  · exact ⟨"name: \"Bee\"", by decide +kernel⟩
  · have hslug : slugOfFile "notes" = some slug := slugOfFile_eq_some_iff.mpr hnotes.symm
    have hnone : slugOfFile "notes" = none := by decide +kernel
    rw [hnone] at hslug
    cases hslug
  · exact ⟨"name: \"Bee\"", by decide +kernel⟩

theorem scan_inAnyOrder_linkedDisk :
    let a := (Artifact.fileNameOf "a").toUTF8
    let b := (Artifact.fileNameOf "b").toUTF8
    let notes := "notes".toUTF8
    ∃ agents, Lists "agents" ["agents"] linkedDisk agents ∧
      (scanRegistry "agents" linkedDisk).1 = .ok agents ∧
      (scan "agents" [⟨#[0xff]⟩, b, notes, a] ⟨linkedDisk, []⟩).1 = .ok agents ∧
      (scan "agents" [a, notes, b] ⟨linkedDisk, []⟩).1 = .ok agents := by
  intro a b notes
  obtain ⟨⟨entries, hentries, hscan⟩, -, hall, -⟩ :=
    @scan_inAnyOrder "agents" ["agents"] linkedDisk (by decide +kernel)
  obtain ⟨agents, hlists, hanswer⟩ := hall legible_linkedDisk
  have hfaultless : ∀ entries, Enumerates linkedDisk.tree ["agents"] entries →
      (scan "agents" entries ⟨linkedDisk, []⟩).1 = .ok agents := by
    intro entries henum
    rcases hanswer entries henum with hok | ⟨error, cause, hfault, -⟩
    · exact hok
    · cases hfault
  have htext : ∀ name : String, name.toUTF8 ≠ ⟨#[0xff]⟩ := by
    intro name h
    have hsome := FileTree.fromUTF8?_eq_some_iff.mpr h.symm
    have hnone : String.fromUTF8? ⟨#[0xff]⟩ = none := by decide +kernel
    rw [hnone] at hsome
    cases hsome
  have htail : Enumerates linkedDisk.tree ["agents"] [b, notes, a] :=
    enumerates_names linkedDisk.tree ["agents"]
  have hmore : Enumerates linkedDisk.tree ["agents"] [⟨#[0xff]⟩, b, notes, a] := by
    constructor
    · decide +kernel
    · intro name
      rw [← htail.mem_iff, List.mem_cons]
      exact or_iff_right (htext name)
  have hback : Enumerates linkedDisk.tree ["agents"] [a, notes, b] :=
    htail.perm (List.reverse_perm [b, notes, a])
  have hregistry : (scanRegistry "agents" linkedDisk).1 = .ok agents := by
    rw [hscan linkedDisk rfl]
    exact congrArg (Except.mapError ListingError.trouble) (hfaultless entries hentries)
  exact ⟨agents, hlists, hregistry, hfaultless _ hmore, hfaultless _ hback⟩

end Cli
end Agentry
