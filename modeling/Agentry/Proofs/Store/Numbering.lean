import Agentry.Proofs.Store.Effect
/-!
# The number behind a slug

Where the slug of an agent is taken, the numbers from two on are tried in turn. Each number that is
passed stands for a file of the directory, so a count of 32 bits does not overflow before one is
reached that is free, the agent's own, or cannot be read.
-/
namespace Agentry

namespace Disk

/-- The disk when so many operations that only look have been made. -/
def past (disk : Disk) (operations : Nat) : Disk :=
  { disk with faults := disk.faults.drop operations }

theorem past_past (disk : Disk) (i j : Nat) : (disk.past i).past j = disk.past (i + j) := by
  simp only [past, List.drop_drop]

theorem look_past {α : Type} (disk : Disk) (truth : Except IoError α) :
    (disk.look truth).2 = disk.past 1 := by
  obtain ⟨tree, home, faults⟩ := disk
  match faults with
  | some cause :: rest => rfl
  | [] => cases truth <;> rfl
  | none :: rest => cases truth <;> rfl

end Disk

namespace Store

variable {store : Store} {spec : AgentSpec} {bench : Workbench} {disk : Disk}
  {root : Location} {base slug name : String} {artifact : Artifact}

/-! ## Looking at a place -/

/-- What a store sees in the place of a slug. -/
def seen (store : Store) (disk : Disk) (slug : String) : Slot :=
  .ofText (disk.readText (store.artifactPath slug)).1

def answerOf : Slot → Except AgentError (Option String)
  | .free => .ok none
  | .owned name => .ok (some name)
  | .unreadable cause => .error (.file cause)

theorem owner_seen (store : Store) (slug : String) (bench : Workbench) :
    (store.owner slug bench).1 = answerOf (store.seen bench.disk slug) ∧
      (store.owner slug bench).2.disk = bench.disk.past 1 := by
  obtain ⟨answer, after, hread⟩ : ∃ answer after,
      bench.disk.readText (store.artifactPath slug) = (answer, after) := ⟨_, _, rfl⟩
  have hpast := bench.disk.look_past
    (bench.disk.tree.readText bench.disk.home (store.artifactPath slug))
  rw [← Disk.readText, hread] at hpast
  simp only [owner, read, readPath, Workbench.doing, seen, hread]
  cases answer with
  | ok text => exact ⟨rfl, hpast⟩
  | error cause => cases cause <;> exact ⟨rfl, hpast⟩

/-- A file of another agent is there, whatever the schedule of faults. -/
theorem held_of_blocked (h : Blocked name (store.seen disk slug)) :
    ∃ text, disk.tree.readText disk.home (store.artifactPath slug) = .ok text ∧
      (Artifact.parse text).spec.name ≠ name := by
  obtain ⟨other, hother, hne⟩ := h
  obtain ⟨text, htext, hname⟩ := ofText_eq_owned hother
  refine ⟨text, ?_, hname ▸ hne⟩
  rcases (disk.look_tells (disk.tree.readText disk.home (store.artifactPath slug))).1 with
    htruth | ⟨cause, -, hcause⟩
  · rw [← htruth]
    exact htext
  · rw [Disk.readText, hcause] at htext
    cases htext

/-! ## Numbers that are passed -/

/-- Every number from two on and below another is passed. The slug without a number is looked at
first, so as many looks come before the one at a number, less one. -/
def Passed (store : Store) (name base : String) (disk : Disk) (n : Nat) : Prop :=
  ∀ m, 2 ≤ m → m < n → Blocked name (store.seen (disk.past (m - 1)) (numberedSlug base m))

variable {n : Nat}

/-- The slug without a number and all numbers that are passed have files. -/
theorem reads_of_passed (hbase : Slug.Valid base.toList)
    (hheld : Blocked name (store.seen disk base)) (hpassed : Passed store name base disk n) :
    ∀ file ∈ candidateFiles base (n - 1), Path.IsName file ∧ ∃ text,
      disk.tree.readText disk.home (Path.join store.directory file) = .ok text := by
  intro file hfile
  obtain ⟨j, hj, rfl⟩ := List.mem_map.mp hfile
  refine ⟨(valid_candidate hbase j).isName, ?_⟩
  cases j with
  | zero =>
    obtain ⟨text, htext, -⟩ := held_of_blocked hheld
    exact ⟨text, htext⟩
  | succ j =>
    have hlt : j + 1 < n - 1 := List.mem_range.mp hj
    obtain ⟨text, htext, -⟩ := held_of_blocked (hpassed (2 + j) (by omega) (by omega))
    exact ⟨text, htext⟩

theorem le_names_of_passed (hbase : Slug.Valid base.toList)
    (hroot : disk.tree.directory disk.home (FileTree.directoryPath store.directory) = .ok root)
    (hheld : Blocked name (store.seen disk base)) (hpassed : Passed store name base disk n) :
    n - 1 ≤ (disk.tree.names root).eraseDups.length := by
  rw [← length_candidateFiles base (n - 1)]
  exact FileTree.length_le_names_of_reads (nodup_candidateFiles base (n - 1)) hroot
    (reads_of_passed hbase hheld hpassed)

theorem Passed.next (h : Passed store name base disk n)
    (hblocked : Blocked name (store.seen (disk.past (n - 1)) (numberedSlug base n))) :
    Passed store name base disk (n + 1) := by
  intro m hm hlt
  rcases Nat.lt_succ_iff_lt_or_eq.mp hlt with hlt | rfl
  · exact h m hm hlt
  · exact hblocked

/-! ## Where the count stops -/

/-- What a place that is not passed makes of a search. -/
inductive Stops (spec : AgentSpec) (slug : String) (slot : Slot) :
    Except AgentError Plan → Prop where
  | found {a : Artifact} {outcome : WriteOutcome} : Finds spec.name slot outcome →
    spec.renderAs slug = .ok a → a.slug = slug → Stops spec slug slot (.ok (a, outcome))
  | unreadable {cause : IoError} : slot = .unreadable cause →
    Stops spec slug slot (.error (.file cause))

theorem stops_planned {outcome : WriteOutcome} {slot : Slot} (hrender : spec.render = .ok artifact)
    (hvalid : Slug.Valid slug.toList) (hfinds : Finds spec.name slot outcome) :
    Stops spec slug slot (planned spec slug outcome) := by
  have hne : slug ≠ "" := by
    rintro rfl
    exact hvalid.ne_nil rfl
  obtain ⟨a, ha⟩ := AgentSpec.renderAs_of_render hrender hne
  rw [planned, ha]
  exact .found hfinds ha (Artifact.names_of_renderAs ha).1

/-- The first number that is not passed, and what comes of it. -/
structure LeastNumber (store : Store) (spec : AgentSpec) (base : String) (disk : Disk) (n : UInt32)
    (answer : Except AgentError Plan) : Prop where
  first : 2 ≤ n.toNat
  passed : Passed store spec.name base disk n.toNat
  held : ∀ m, 2 ≤ m → m < n.toNat → ∃ text,
    disk.tree.readText disk.home (store.artifactPath (numberedSlug base m)) = .ok text ∧
      (Artifact.parse text).spec.name ≠ spec.name
  stops : Stops spec (numberedSlug base n.toNat)
    (store.seen (disk.past (n.toNat - 1)) (numberedSlug base n.toNat)) answer

theorem leastNumber {n : UInt32} {answer : Except AgentError Plan} (hn : 2 ≤ n.toNat)
    (hpassed : Passed store spec.name base disk n.toNat)
    (hstops : Stops spec (numberedSlug base n.toNat)
      (store.seen (disk.past (n.toNat - 1)) (numberedSlug base n.toNat)) answer) :
    LeastNumber store spec base disk n answer where
  first := hn
  passed := hpassed
  held := by
    intro m hm hlt
    have hheld := held_of_blocked (hpassed m hm hlt)
    exact hheld
  stops := hstops

/-- The count does not overflow, since fewer numbers are passed than there are entries. -/
theorem counted_leastNumber (hrender : spec.render = .ok artifact)
    (hbase : Slug.Valid base.toList)
    (hroot : disk.tree.directory disk.home (FileTree.directoryPath store.directory) = .ok root)
    (hcount : (disk.tree.names root).eraseDups.length < Nat.pow 2 32 - 2)
    (hheld : Blocked spec.name (store.seen disk base)) (n : UInt32)
    (hn : 2 ≤ n.toNat) (hdisk : bench.disk = disk.past (n.toNat - 1))
    (hpassed : Passed store spec.name base disk n.toNat) :
    ∃ stop answer last, LeastNumber store spec base disk stop answer ∧
      store.counted spec base n bench = (some answer, last) := by
  induction hleft : UInt32.size - n.toNat generalizing n bench with
  | zero => exact absurd n.toNat_lt_size (by omega)
  | succ left ih =>
    have hvalid := valid_numberedSlug hbase n.toNat
    obtain ⟨hanswer, hpast⟩ := owner_seen store (numberedSlug base n.toNat) bench
    rw [hdisk] at hanswer hpast
    rw [counted]
    generalize store.owner (numberedSlug base n.toNat) bench = looked at hanswer hpast
    obtain ⟨answer, after⟩ := looked
    obtain rfl : answer = _ := hanswer
    cases hslot : store.seen (disk.past (n.toNat - 1)) (numberedSlug base n.toNat) with
    | free =>
      refine ⟨n, _, after, leastNumber hn hpassed ?_, rfl⟩
      exact stops_planned hrender hvalid (.of_free hslot)
    | unreadable cause =>
      exact ⟨n, _, after, leastNumber hn hpassed (.unreadable hslot), rfl⟩
    | owned other =>
      by_cases hother : other = spec.name
      · simp only [answerOf, hother, if_true]
        refine ⟨n, _, after, leastNumber hn hpassed ?_, rfl⟩
        exact stops_planned hrender hvalid (.of_owned (hother ▸ hslot))
      · -- One number more is passed, and all of them still have files in the directory.
        have hpassed' := hpassed.next ⟨other, hslot, hother⟩
        have hle := le_names_of_passed hbase hroot hheld hpassed'
        have hnext : n.toNat + 1 < UInt32.size := by
          have hsize : UInt32.size = Nat.pow 2 32 := rfl
          omega
        rw [← toNat_next hnext] at hpassed'
        simp only [answerOf, hother, if_false, hnext, if_true]
        refine ih (n + 1) ?_ ?_ hpassed' ?_
        · rw [toNat_next hnext]
          omega
        · rw [hpast, Disk.past_past, toNat_next hnext]
          congr 1
          omega
        · rw [toNat_next hnext]
          omega

/-- A write whose slug is taken goes to the first number that is free or its own, or fails at one
that cannot be read before. -/
theorem plan_leastNumber (store : Store) (bench : Workbench) (hpolicy : store.policy = .suffix)
    (hrender : spec.render = .ok artifact)
    (hheld : Blocked spec.name (store.seen bench.disk artifact.slug))
    (hroot : bench.disk.tree.directory bench.disk.home
      (FileTree.directoryPath store.directory) = .ok root)
    (hcount : (bench.disk.tree.names root).eraseDups.length < Nat.pow 2 32 - 2) :
    ∃ n answer last, LeastNumber store spec artifact.slug bench.disk n answer ∧
      store.counted spec artifact.slug 2 (store.owner artifact.slug bench).2 = (some answer, last) ∧
      store.plan spec artifact bench = (answer, last) := by
  obtain ⟨hslug, -⟩ := Artifact.renderAs_ok hrender
  have hbase : Slug.Valid artifact.slug.toList := by
    rw [(Artifact.names_of_renderAs hrender).1]
    exact valid_slugify hslug
  obtain ⟨hanswer, hpast⟩ := owner_seen store artifact.slug bench
  have hnone : Passed store spec.name artifact.slug bench.disk (2 : UInt32).toNat :=
    fun m hm hlt => absurd hlt (Nat.not_lt.mpr hm)
  obtain ⟨n, answer, last, hleast, hcounted⟩ :=
    counted_leastNumber hrender hbase hroot hcount hheld 2 (Nat.le_refl 2) hpast hnone
  refine ⟨n, answer, last, hleast, hcounted, ?_⟩
  obtain ⟨other, hother, hne⟩ := hheld
  rw [hother] at hanswer
  rw [plan]
  generalize store.owner artifact.slug bench = looked at hanswer hcounted
  obtain ⟨owner, after⟩ := looked
  obtain rfl : owner = .ok (some other) := hanswer
  have hsearch : store.counted spec artifact.slug (.ofNat firstNumber) after =
      (some answer, last) := hcounted
  simp only [hne, if_false, settle, hpolicy, hsearch, orOverflow]

/-- A directory in which the first number is taken as well. -/
def crowdedDisk : Disk :=
  .sound ⟨[(["agents"], .directory directoryMode),
    (["agents", "stock-bot.agent.rs"], .file "name: \"Rival\"".toUTF8 0o600),
    (["agents", "stock-bot-2.agent.rs"], .file "name: \"Other\"".toUTF8 0o600)]⟩ []

theorem plan_leastNumber_crowdedDisk : ∃ a b last, stockBot.render = .ok a ∧
    (Store.mk "agents" .suffix).plan stockBot a ⟨crowdedDisk, []⟩ = (.ok (b, .created), last) ∧
      b.slug = "stock-bot-3" := by
  obtain ⟨a, ha⟩ := exists_render_stockBot
  have hslug : a.slug = "stock-bot" :=
    (Artifact.names_of_renderAs ha).1.trans (by decide +kernel)
  have htaken : (Store.mk "agents" .suffix).seen (crowdedDisk.past 1) "stock-bot-2" =
      .owned "Other" := by
    decide +kernel
  have hfree : (Store.mk "agents" .suffix).seen (crowdedDisk.past 2) "stock-bot-3" = .free := by
    decide +kernel
  have hroot : crowdedDisk.tree.directory crowdedDisk.home (FileTree.directoryPath "agents") =
      .ok ["agents"] := by
    decide +kernel
  obtain ⟨n, answer, last, hleast, -, hplan⟩ :=
    plan_leastNumber ⟨"agents", .suffix⟩ ⟨crowdedDisk, []⟩ rfl ha (by rw [hslug]; decide +kernel)
      hroot (by decide +kernel)
  rw [hslug] at hleast
  have hpassed : n.toNat ≠ 2 := by
    intro hn
    have hstops := hleast.stops
    rw [hn] at hstops
    cases hstops with
    | found hfinds => exact hfinds.not_blocked ⟨"Other", htaken, by decide⟩
    | unreadable hcause => cases htaken.symm.trans hcause
  have hstopped : n.toNat ≤ 3 := by
    by_contra hlt
    obtain ⟨other, hother, -⟩ := hleast.passed 3 (by decide) (Nat.not_le.mp hlt)
    cases hfree.symm.trans hother
  have hn : n.toNat = 3 := by
    have := hleast.first
    omega
  have hstops := hleast.stops
  rw [hn] at hstops
  generalize hslot : (Store.mk "agents" .suffix).seen (crowdedDisk.past (3 - 1))
    (numberedSlug "stock-bot" 3) = slot at hstops
  obtain rfl : slot = .free := hslot.symm.trans hfree
  cases hstops with
  | @found b outcome hfinds _ hb =>
    cases hfinds
    exact ⟨a, b, last, ha, hplan, hb⟩
  | unreadable hcause => cases hcause

end Store
end Agentry
