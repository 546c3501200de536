import Agentry.Invocation.Behavior
/-!
# A sandbox in use

All who use a sandbox hold clones of it, and the clones share one directory. A call that changes it
reads the directory, looks where the path leads from there, and writes back what it found; others
may move in between. A context takes its directory from the sandbox once, as it is made.
-/
namespace Agentry

/-- A change of the shared directory under way: what it read, and then what it found. -/
inductive SharedChange where
  | read (base path : OsPath)
  | found (directory : OsPath)
  deriving DecidableEq, Repr

/-- A sandbox with the contexts in it and the calls under way. -/
structure Sharing (σ : Type) where
  sandbox : Sandbox
  contexts : Nat → Option Context
  calls : Nat → Option SharedChange
  world : σ

/-- What may happen next. A change of directory of a context is one move, as the context is nobody
else's; one of the shared directory is three. Programs may change the world at any time. -/
inductive Move (σ : Type) where
  | enter (who : Nat) (spec : AgentSpec) (id : RunId)
  | change (who : Nat) (path : OsPath)
  | run (who : Nat) (command : String) (arguments : List String) (options : ExecOptions)
  | execute (command : String) (arguments : List String) (options : ExecOptions)
  | readBase (call : Nat) (path : OsPath)
  | resolve (call : Nat)
  | writeBack (call : Nat)
  | drift (world : σ)

namespace Sharing

/-- A sandbox that nobody uses yet. -/
def unused (sandbox : Sandbox) (world : σ) : Sharing σ :=
  ⟨sandbox, fun _ => none, fun _ => none, world⟩

/-- A context, which sees the sandbox as it is now. -/
def context? (now : Sharing σ) (who : Nat) : Option Context :=
  (now.contexts who).map fun context => { context with sandbox := now.sandbox }

def place (now : Sharing σ) (who : Nat) (context : Context) : Sharing σ :=
  { now with contexts := fun other => if other = who then some context else now.contexts other }

def track (now : Sharing σ) (call : Nat) (change : Option SharedChange) : Sharing σ :=
  { now with calls := fun other => if other = call then change else now.calls other }

/-- Makes a move, if it is one that can be made now. -/
def step (platform : Platform σ) (now : Sharing σ) : Move σ → Option (Sharing σ)
  | .enter who spec id =>
    match now.contexts who with
    | some _ => none
    | none => some (now.place who (.new spec id now.sandbox))
  | .change who path =>
    (now.context? who).map fun context =>
      match context.changeDirectory platform now.world path with
      | .ok context => now.place who context
      | .error _ => now
  | .run who command arguments options =>
    (now.context? who).map fun context =>
      { now with world := (context.run platform command arguments options now.world).2.2 }
  | .execute command arguments options =>
    some { now with
      world := (now.sandbox.execute platform.start command arguments options now.world).2.2 }
  | .readBase call path =>
    match now.calls call with
    | some _ => none
    | none => some (now.track call (some (.read now.sandbox.directory path)))
  | .resolve call =>
    match now.calls call with
    | some (.read base path) =>
      match platform.changeDirectory now.world base path with
      | .ok directory => some (now.track call (some (.found directory)))
      | .error _ => some (now.track call none)
    | _ => none
  | .writeBack call =>
    match now.calls call with
    | some (.found directory) =>
      some { now.track call none with sandbox := { now.sandbox with directory } }
    | _ => none
  | .drift world => some { now with world }

end Sharing
end Agentry
