import Agentry.Event
import Agentry.Files.Disk
import Agentry.Store.Policy
/-!
# The store

A store keeps one file for each agent in a directory, named for the agent's slug. The agent whose
name a file reads back to owns that file. A write edits the file that its agent owns; a file that
another agent owns is a collision, which the policy settles. The new text replaces the old one in
one step, and a file that has it already is not touched.
-/
namespace Agentry

structure Store where
  directory : String
  policy : CollisionPolicy
  deriving DecidableEq, Repr

/-- A file that a write left in place. -/
structure Written where
  slug : String
  path : String
  digest : String
  outcome : WriteOutcome
  deriving DecidableEq, Repr

/-- A disk in use, and the events so far. -/
structure Workbench where
  disk : Disk
  events : List Event

namespace Workbench

def log (bench : Workbench) (events : List Event) : Workbench :=
  { bench with events := bench.events ++ events }

/-- An operation on the disk. -/
def doing (bench : Workbench) (operation : Disk → Except IoError α × Disk) :
    Except AgentError α × Workbench :=
  let (answer, disk) := operation bench.disk
  (answer.mapError .file, { bench with disk })

end Workbench

namespace Store

/-- The mode of a file that was not there before. -/
def newFileMode : Nat := 0o644

def artifactPath (store : Store) (slug : String) : String :=
  Path.join store.directory (Artifact.fileNameOf slug)

/-- Reads the artifact at a path. -/
def readPath (path : String) (bench : Workbench) : Except AgentError ParsedArtifact × Workbench :=
  match bench.doing (·.readText path) with
  | (.ok text, bench) =>
    let parsed := Artifact.parse text
    (.ok parsed, bench.log parsed.events)
  | (.error cause, bench) => (.error cause, bench)

def read (store : Store) (slug : String) (bench : Workbench) :
    Except AgentError ParsedArtifact × Workbench :=
  readPath (store.artifactPath slug) bench

/-- The name of the agent that owns a slug's file, if there is such a file. -/
def owner (store : Store) (slug : String) (bench : Workbench) :
    Except AgentError (Option String) × Workbench :=
  match store.read slug bench with
  | (.ok parsed, bench) => (.ok (some parsed.spec.name), bench)
  | (.error (.file .notFound), bench) => (.ok none, bench)
  | (.error cause, bench) => (.error cause, bench)

/-- What a write will put where, and what that will have done. -/
abbrev Plan := Artifact × WriteOutcome

def planned (spec : AgentSpec) (slug : String) (outcome : WriteOutcome) : Except AgentError Plan :=
  (spec.renderAs slug).map (·, outcome)

theorem toNat_next {n : UInt32} (h : n.toNat + 1 < UInt32.size) :
    (n + 1).toNat = n.toNat + 1 := by
  rw [UInt32.toNat_add]
  exact Nat.mod_eq_of_lt h

/-- Looks for the first numbered slug, from `n` on, that is free or owned by the agent itself. The
count has 32 bits, and there is no answer when it overflows. -/
def counted (store : Store) (spec : AgentSpec) (base : String) (n : UInt32) (bench : Workbench) :
    Option (Except AgentError Plan) × Workbench :=
  let slug := numberedSlug base n.toNat
  match store.owner slug bench with
  | (.error cause, bench) => (some (.error cause), bench)
  | (.ok none, bench) => (some (planned spec slug .created), bench)
  | (.ok (some name), bench) =>
    if name = spec.name then (some (planned spec slug .updated), bench)
    else if n.toNat + 1 < UInt32.size then counted store spec base (n + 1) bench
    else (none, bench)
termination_by UInt32.size - n.toNat
decreasing_by
  rename_i hnext
  have hlater := toNat_next hnext
  omega

/-- Where a count overflows, the program stops. -/
def orOverflow : Option (Except AgentError α) × Workbench → Except AgentError α × Workbench
  | (some answer, bench) => (answer, bench)
  | (none, bench) => (.error .countOverflow, bench)

/-- The first number that a slug is given. -/
def firstNumber : Nat := 2

/-- Settles where an artifact goes whose slug is owned by `existing`. -/
def settle (store : Store) (spec : AgentSpec) (artifact : Artifact) (existing : String)
    (bench : Workbench) : Except AgentError Plan × Workbench :=
  match store.policy with
  | .reject => (.error (.slugTaken artifact.slug existing spec.name), bench)
  | .overwrite =>
    (.ok (artifact, .overwrote), bench.log [.overwriting artifact.slug existing spec.name])
  | .suffix =>
    orOverflow (store.counted spec artifact.slug (.ofNat firstNumber) bench)

def plan (store : Store) (spec : AgentSpec) (artifact : Artifact) (bench : Workbench) :
    Except AgentError Plan × Workbench :=
  match store.owner artifact.slug bench with
  | (.error cause, bench) => (.error cause, bench)
  | (.ok none, bench) => (.ok (artifact, .created), bench)
  | (.ok (some name), bench) =>
    if name = spec.name then (.ok (artifact, .updated), bench)
    else store.settle spec artifact name bench

/-- An update of a file that has the text already changes nothing. -/
def refine (path : String) (artifact : Artifact) (outcome : WriteOutcome) (bench : Workbench) :
    Except AgentError WriteOutcome × Workbench :=
  if outcome = .updated then
    match bench.doing (·.readText path) with
    | (.ok text, bench) =>
      (.ok (if text = artifact.source then .unchanged else .updated), bench)
    | (.error cause, bench) => (.error cause, bench)
  else (.ok outcome, bench)

/-- The mode for the file at a path: the one it has, or the one of new files. -/
def modeFor (path : String) (bench : Workbench) : Except AgentError Nat × Workbench :=
  match bench.doing (·.mode path) with
  | (.error (.file .notFound), bench) => (.ok newFileMode, bench)
  | answer => answer

/-- Puts a text at a path by way of a file without a name in the store's directory. -/
def replace (store : Store) (path : String) (source : String) (bench : Workbench) :
    Except AgentError Unit × Workbench :=
  match bench.doing (·.makeDirectories store.directory) with
  | (.error cause, bench) => (.error cause, bench)
  | (.ok (), bench) =>
    match bench.doing (·.openTemporary store.directory) with
    | (.error cause, bench) => (.error cause, bench)
    | (.ok (), bench) =>
      match bench.doing (·.changeTemporary) with
      | (.error cause, bench) => (.error cause, bench)
      | (.ok (), bench) =>
        match modeFor path bench with
        | (.error cause, bench) => (.error cause, bench)
        | (.ok mode, bench) =>
          match bench.doing (·.changeTemporary) with
          | (.error cause, bench) => (.error cause, bench)
          | (.ok (), bench) => bench.doing (·.persist path source.toUTF8 mode)

/-- Carries out a plan. -/
def commit (store : Store) (artifact : Artifact) (outcome : WriteOutcome) (bench : Workbench) :
    Except AgentError Written × Workbench :=
  let path := Path.join store.directory artifact.fileName
  let written (outcome : WriteOutcome) : Written := ⟨artifact.slug, path, artifact.digest, outcome⟩
  match refine path artifact outcome bench with
  | (.error cause, bench) => (.error cause, bench)
  | (.ok outcome, bench) =>
    let done (bench : Workbench) : Except AgentError Written × Workbench :=
      (.ok (written outcome), bench.log [.written artifact.slug path outcome.name])
    if outcome = .unchanged then done bench
    else
      match store.replace path artifact.source bench with
      | (.error cause, bench) => (.error cause, bench)
      | (.ok (), bench) => done bench

/-- Writes the artifact of a spec. Nothing is written when the spec is refused or cannot be
rendered. -/
def write (store : Store) (spec : AgentSpec) (bench : Workbench) :
    Except AgentError Written × Workbench :=
  match spec.render with
  | .error cause => (.error cause, bench)
  | .ok artifact =>
    match store.plan spec artifact bench with
    | (.error cause, bench) => (.error cause, bench)
    | (.ok (artifact, outcome), bench) => store.commit artifact outcome bench

end Store
end Agentry
