import Agentry.Cli.Create
import Agentry.Cli.Listing
import Agentry.Registry
/-!
# The command line

A command line is answered on a disk with a platform to run programs on. An agent to run is looked
for under the text that was given, and otherwise under its slug.
-/
namespace Agentry.Cli

open Json (Value)

/-- What a command line is answered with. -/
structure World where
  platform : Platform Disk
  environment : Environment
  /-- The directory that the command line was typed in. -/
  directory : OsPath
  stamp : RunStamp

/-- The slug of the file that a text asks for. -/
def artifactSlug (store : Store) (agent : String) (disk : Disk) : String :=
  if disk.tree.exists? disk.home (store.artifactPath agent) then agent else slugify agent

def sandboxOf (world : World) (settings : Settings) : Sandbox :=
  ⟨⟨settings.timeoutMs, false⟩, world.directory⟩

/-- The registry that holds the agent of a slug's file, if there is one. -/
def loadAgent (store : Store) (settings : Settings) (slug : String) (disk : Disk) :
    Except Trouble (Registry Disk) × Disk :=
  let registry : Registry Disk := .empty ⟨settings.strictNumbers⟩
  match store.read slug ⟨disk, []⟩ with
  | (.ok parsed, bench) =>
    ((registry.registerSpec slug parsed.spec).mapError .ofError, bench.disk)
  | (.error (.file .notFound), bench) => (.ok registry, bench.disk)
  | (.error cause, bench) =>
    (.error (.within ("failed to load agent '" ++ slug ++ "'") (.ofError cause)), bench.disk)

def runAgent (world : World) (settings : Settings) (agent : String) (arguments : List String)
    (disk : Disk) : Reply × Disk :=
  let store : Store := ⟨settings.registry, .reject⟩
  let slug := artifactSlug store agent disk
  match loadAgent store settings slug disk with
  | (.error trouble, disk) => (trouble.reply, disk)
  | (.ok registry, disk) =>
    let (result, _, disk) :=
      registry.invoke world.platform (sandboxOf world settings) world.stamp slug arguments disk
    let text := result.toJson.prettyText ++ "\n"
    (if result.isSuccess then .ok text else .failed text, disk)

/-- The exit code of a command: its own if that is an octet. -/
def exitCodeOf (record : CommandRecord) : Nat :=
  if 0 ≤ record.exitCode && record.exitCode ≤ 255 then record.exitCode.toNat else 1

def exec (world : World) (settings : Settings) (directory : Option OsPath) (allowUnsafe : Bool)
    (command : String) (arguments : List String) (disk : Disk) : Reply × Disk :=
  let (record, _, disk) := (sandboxOf world settings).execute world.platform.start command arguments
    ⟨directory, none, allowUnsafe, []⟩ disk
  let reply : Reply :=
    if settings.json then
      match record.toJson with
      | .ok document => ⟨exitCodeOf record, document.prettyText ++ "\n", ""⟩
      | .error cause => (Trouble.plain cause.message).reply
    else ⟨exitCodeOf record, record.stdout, record.stderr⟩
  (reply, disk)

def perform (world : World) (settings : Settings) (request : Request) (disk : Disk) :
    Reply × Disk :=
  match request with
  | .create source policy => create settings source policy disk
  | .list => list settings disk
  | .display slug => display settings slug disk
  | .run agent arguments => runAgent world settings agent arguments disk
  | .exec directory allowUnsafe command arguments =>
    exec world settings directory allowUnsafe command arguments disk

def programName : String := "agentc"

def versionText : String := programName ++ " " ++ Artifact.version ++ "\n"

def usageLine : String := "Usage: " ++ programName ++ " [OPTIONS] <COMMAND>\n"

def usageText (message : String) : String := "error: " ++ message ++ "\n\n" ++ usageLine

/-- Answers a command line. A command line that cannot be understood has the exit code 2. -/
def answer (world : World) (arguments : List String) (disk : Disk) : Reply × Disk :=
  match parse world.environment arguments with
  | .error (.usage message) => (⟨2, "", usageText message⟩, disk)
  | .error .help => (.ok usageLine, disk)
  | .error .version => (.ok versionText, disk)
  | .ok (settings, request) => perform world settings request disk

end Agentry.Cli
