import Agentry.Cli.Reply
import Agentry.Cli.Request
import Agentry.Store.Basic
/-!
# Listing and showing agents

A registry directory is listed by reading every artifact in it, in the order of the slugs.
-/
namespace Agentry.Cli

open Json (Value)

structure ListedAgent where
  slug : String
  name : String
  version : String
  digest : DigestStatus
  issues : Nat
  deriving DecidableEq, Repr

namespace ListedAgent

def ofParsed (slug : String) (parsed : ParsedArtifact) : ListedAgent :=
  ⟨slug, parsed.spec.name, parsed.spec.version, parsed.digest, parsed.issues.length⟩

def toJson (agent : ListedAgent) : Value :=
  .object [("slug", .string agent.slug), ("name", .string agent.name),
    ("version", .string agent.version), ("digest", .string agent.digest.name),
    ("issues", .ofNat agent.issues)]

/-- A text filled up to the width of a column. -/
def column (s : String) : String :=
  s ++ String.ofList (List.replicate (24 - s.length) ' ')

def marker : DigestStatus → String
  | .matching => ""
  | .edited => " (edited)"
  | .missing => " (no digest)"

def row (agent : ListedAgent) : String :=
  column agent.slug ++ " " ++ column agent.name ++ " " ++ agent.version ++ marker agent.digest ++
    "\n"

end ListedAgent

/-- The slug of an artifact's file. -/
def slugOfFile (name : String) : Option String :=
  let ending := Artifact.fileSuffix.toList
  let cs := name.toList
  if ending.isSuffixOf cs then some (String.ofList (cs.take (cs.length - ending.length))) else none

/-- The name and the slug of an artifact's file among the entries of a directory. A name that is no
text is passed over. -/
def artifactOf (entry : ByteArray) : Option (String × String) :=
  (String.fromUTF8? entry).bind fun name => (slugOfFile name).map (name, ·)

/-- Why a directory is not listed: an entry of it could not be told, or an artifact not be read. -/
inductive ListingError where
  | entry (cause : IoError)
  | artifact (cause : AgentError)
  deriving DecidableEq, Repr

def ListingError.trouble : ListingError → Trouble
  | .entry cause => .plain cause.message
  | .artifact cause => .ofError cause

/-- Goes on to the next entry of a directory, or finds that there is none. -/
def advance (bench : Workbench) : Except ListingError Unit × Workbench :=
  let (answer, disk) := bench.disk.look (.ok ())
  (answer.mapError .entry, { bench with disk })

/-- Reads the artifacts among some entries of a directory. -/
def readListed (directory : String) : List ByteArray → Workbench →
    Except ListingError (List ListedAgent) × Workbench
  | [], bench =>
    match advance bench with
    | (.error cause, bench) => (.error cause, bench)
    | (.ok (), bench) => (.ok [], bench)
  | entry :: rest, bench =>
    match advance bench with
    | (.error cause, bench) => (.error cause, bench)
    | (.ok (), bench) =>
      match artifactOf entry with
      | none => readListed directory rest bench
      | some (name, slug) =>
        match Store.readPath (Path.join directory name) bench with
        | (.error cause, bench) => (.error (.artifact cause), bench)
        | (.ok parsed, bench) =>
          match readListed directory rest bench with
          | (.error cause, bench) => (.error cause, bench)
          | (.ok agents, bench) => (.ok (.ofParsed slug parsed :: agents), bench)

def sortedBySlug (agents : List ListedAgent) : List ListedAgent :=
  agents.mergeSort fun a b => decide (a.slug ≤ b.slug)

/-- The artifacts of a directory whose entries are found in some order. -/
def scan (directory : String) (entries : List ByteArray) (bench : Workbench) :
    Except ListingError (List ListedAgent) × Workbench :=
  match readListed directory entries bench with
  | (.ok agents, bench) => (.ok (sortedBySlug agents), bench)
  | (.error cause, bench) => (.error cause, bench)

/-- The names in the directory at a path, each of them once, in octets. -/
def entryNames (path : String) (disk : Disk) : Except IoError (List ByteArray) × Disk :=
  disk.look ((disk.tree.directory disk.home path).map fun loc =>
    (disk.tree.names loc).eraseDups.map String.toUTF8)

/-- The artifacts of a directory. A directory that is not there has none. -/
def scanRegistry (directory : String) (disk : Disk) : Except Trouble (List ListedAgent) × Disk :=
  match entryNames directory disk with
  | (.error .notFound, disk) => (.ok [], disk)
  | (.error cause, disk) =>
    (.error (.within ("failed to read " ++ directory) (.plain cause.message)), disk)
  | (.ok entries, disk) =>
    let (answer, bench) := scan directory entries ⟨disk, []⟩
    (answer.mapError ListingError.trouble, bench.disk)

def listText (directory : String) (agents : List ListedAgent) : String :=
  if agents.isEmpty then "No agents in " ++ directory ++ "\n"
  else String.join (agents.map ListedAgent.row)

def list (settings : Settings) (disk : Disk) : Reply × Disk :=
  match scanRegistry settings.registry disk with
  | (.error trouble, disk) => (trouble.reply, disk)
  | (.ok agents, disk) =>
    (.ok (if settings.json then (Value.array (agents.map ListedAgent.toJson)).prettyText ++ "\n"
      else listText settings.registry agents), disk)

def issueJson (issue : PartIssue) : Value :=
  .object [("field", .string issue.part.label), ("message", .string issue.cause.message)]

def parsedJson (parsed : ParsedArtifact) : Value :=
  .object [("spec", parsed.spec.toJson), ("issues", .array (parsed.issues.map issueJson)),
    ("digest", .string parsed.digest.name)]

def warning (issue : PartIssue) : String :=
  "warning: " ++ issue.part.label ++ ": " ++ issue.cause.message ++ "\n"

def display (settings : Settings) (slug : String) (disk : Disk) : Reply × Disk :=
  let store : Store := ⟨settings.registry, .reject⟩
  match store.read slug ⟨disk, []⟩ with
  | (.error cause, bench) =>
    ((Trouble.within ("failed to read agent '" ++ slug ++ "'") (.ofError cause)).reply, bench.disk)
  | (.ok parsed, bench) =>
    (if settings.json then .ok ((parsedJson parsed).prettyText ++ "\n")
      else ⟨0, parsed.spec.toJson.prettyText ++ "\n", String.join (parsed.issues.map warning)⟩,
      bench.disk)

end Agentry.Cli
