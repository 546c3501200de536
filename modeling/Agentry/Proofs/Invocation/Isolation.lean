import Agentry.Invocation.Sharing
/-!
# Directories of their own

Contexts of one sandbox and changes of its directory take their turns in any order. Over files that
stay as they are, a context is where its own changes lead from the directory that it took over, and
the shared directory is what a call wrote back last.
-/
namespace Agentry

variable {σ : Type}

theorem FileTree.changeDirectory_eq_ok_iff {tree : FileTree} {home : Location}
    {base path found : OsPath} :
    tree.changeDirectory home base path = .ok found ↔
      ∃ loc, tree.directoryAt home (base.join path) = .ok loc ∧
        canonical (base.join path) loc = found := by
  simp only [changeDirectory, directoryAt, bind, Except.bind]
  cases tree.locatePath home .existing (base.join path) with
  | error cause => simp
  | ok loc => by_cases hdir : tree.isDirectoryAt loc = true <;> simp [hdir]

theorem FileTree.changeDirectory_eq_error {tree : FileTree} {home : Location}
    {base path : OsPath} {cause : IoError}
    (h : tree.directoryAt home (base.join path) = .error cause) :
    ∃ fault, tree.changeDirectory home base path = .error fault := by
  cases hchange : tree.changeDirectory home base path with
  | error fault => exact ⟨fault, rfl⟩
  | ok found =>
    obtain ⟨loc, hloc, -⟩ := changeDirectory_eq_ok_iff.mp hchange
    rw [h] at hloc
    cases hloc

/-! ## Commands -/

/-- A platform that also writes down each program that it is asked to start. -/
def Platform.recorded (platform : Platform σ) : Platform (σ × List ProgramCall) where
  start := fun call (world, calls) =>
    let (attempt, after) := platform.start call world
    (attempt, after, calls ++ [call])
  changeDirectory := fun (world, _) => platform.changeDirectory world

theorem CommandRecord.ofAttempt_directory (call : ProgramCall) (line : String)
    (attempt : Attempt) : (ofAttempt call line attempt).1.directory = call.directory ∧
      (ofAttempt call line attempt).1.denied = false := by
  cases attempt <;> exact ⟨rfl, rfl⟩

/-- A command is given one directory, which its record shows also if it is denied. -/
theorem Context.run_recorded (context : Context) (platform : Platform σ) (command : String)
    (arguments : List String) (options : ExecOptions) (world : σ) :
    ∃ record events after calls,
      context.run platform command arguments options world = (record, events, after) ∧
        context.run platform.recorded command arguments options (world, []) =
          (record, events, after, calls) ∧
        record.directory = options.directory.getD context.directory ∧
        calls.map (·.directory) =
          if record.denied then [] else [options.directory.getD context.directory] := by
  simp only [run, Sandbox.execute]
  split
  · exact ⟨_, _, _, [], rfl, rfl, rfl, rfl⟩
  · obtain ⟨hdirectory, hdenied⟩ := CommandRecord.ofAttempt_directory
      (context.sandbox.call command arguments
        { options with directory := some (options.directory.getD context.directory) })
      (commandLine command arguments)
      (platform.start (context.sandbox.call command arguments
        { options with directory := some (options.directory.getD context.directory) }) world).1
    refine ⟨_, _, _, [_], rfl, rfl, hdirectory, ?_⟩
    rw [hdenied]
    rfl

/-! ## One move -/

namespace Move

/-- The path of a change that a context makes. -/
def pathBy (who : Nat) : Move σ → Option OsPath
  | .change other path => if other = who then some path else none
  | _ => none

/-- The change of the shared directory that a move is a part of. -/
def call? : Move σ → Option Nat
  | .readBase call _ => some call
  | .resolve call => some call
  | .writeBack call => some call
  | _ => none

end Move

namespace Sharing

variable {platform : Platform σ} {before after : Sharing σ} {move : Move σ}

def directory? (now : Sharing σ) (who : Nat) : Option OsPath :=
  (now.contexts who).map (·.directory)

theorem directory?_of_context? {now : Sharing σ} {who : Nat} {context : Context}
    (h : now.context? who = some context) : now.directory? who = some context.directory := by
  obtain ⟨held, hheld, rfl⟩ := Option.map_eq_some_iff.mp h
  rw [directory?, hheld]
  rfl

@[simp] theorem directory?_place (now : Sharing σ) (who other : Nat) (context : Context) :
    (now.place who context).directory? other =
      if other = who then some context.directory else now.directory? other := by
  simp only [directory?, place]
  split <;> rfl

theorem calls_track_eq_some {now : Sharing σ} {call other : Nat} {tracked : Option SharedChange}
    {change : SharedChange} (h : (now.track other tracked).calls call = some change) :
    other = call ∧ tracked = some change ∨ other ≠ call ∧ now.calls call = some change := by
  by_cases hother : call = other
  · exact .inl ⟨hother.symm, by simpa [track, hother] using h⟩
  · exact .inr ⟨Ne.symm hother, by simpa [track, hother] using h⟩

/-- All that a move can do. -/
inductive Effect (platform : Platform σ) (before : Sharing σ) : Move σ → Sharing σ → Prop
  | entered {who : Nat} {spec : AgentSpec} {id : RunId} :
    Effect platform before (.enter who spec id)
      (before.place who (.new spec id before.sandbox))
  | changed {who : Nat} {path directory : OsPath} {context : Context}
    (hold : before.directory? who = some context.directory)
    (hfound : platform.changeDirectory before.world context.directory path = .ok directory) :
    Effect platform before (.change who path) (before.place who { context with directory })
  | stayed {who : Nat} {path directory : OsPath} {cause : DirectoryError}
    (hold : before.directory? who = some directory)
    (hfound : platform.changeDirectory before.world directory path = .error cause) :
    Effect platform before (.change who path) before
  | passed {move : Move σ} (world : σ) (hpath : ∀ who, move.pathBy who = none)
    (hcall : move.call? = none) : Effect platform before move { before with world }
  | read {call : Nat} {path : OsPath} : Effect platform before (.readBase call path)
      (before.track call (some (.read before.sandbox.directory path)))
  | found {call : Nat} {base path directory : OsPath}
    (hcall : before.calls call = some (.read base path))
    (hfound : platform.changeDirectory before.world base path = .ok directory) :
    Effect platform before (.resolve call) (before.track call (some (.found directory)))
  | lost {call : Nat} : Effect platform before (.resolve call) (before.track call none)
  | wrote {call : Nat} {directory : OsPath} (hcall : before.calls call = some (.found directory)) :
    Effect platform before (.writeBack call)
      { before.track call none with sandbox := { before.sandbox with directory } }

theorem effect_of_step (h : before.step platform move = some after) :
    before.Effect platform move after := by
  cases move with
  | enter who spec id =>
    simp only [step] at h
    split at h <;> cases h
    exact .entered
  | change who path =>
    obtain ⟨context, hcontext, rfl⟩ := Option.map_eq_some_iff.mp h
    have hold := directory?_of_context? hcontext
    cases hfound : platform.changeDirectory before.world context.directory path with
    | error cause =>
      simp only [Context.changeDirectory, hfound, Except.map]
      exact .stayed hold hfound
    | ok directory =>
      simp only [Context.changeDirectory, hfound, Except.map]
      exact .changed hold hfound
  | run who command arguments options =>
    obtain ⟨context, -, rfl⟩ := Option.map_eq_some_iff.mp h
    exact .passed _ (fun _ => rfl) rfl
  | execute command arguments options =>
    cases h
    exact .passed _ (fun _ => rfl) rfl
  | drift world =>
    cases h
    exact .passed _ (fun _ => rfl) rfl
  | readBase call path =>
    simp only [step] at h
    split at h <;> cases h
    exact .read
  | resolve call =>
    simp only [step] at h
    split at h
    · rename_i base path hcall
      split at h <;> cases h
      · rename_i directory hfound
        exact .found hcall hfound
      · exact .lost
    · cases h
  | writeBack call =>
    simp only [step] at h
    split at h <;> cases h
    rename_i directory hcall
    exact .wrote hcall

theorem Effect.directory? {who : Nat} {directory : OsPath}
    (h : before.Effect platform move after) (hwho : after.directory? who = some directory) :
    (∃ spec id, move = .enter who spec id ∧ directory = before.sandbox.directory) ∨
      ∃ old, before.directory? who = some old ∧
        directory = match move.pathBy who with
          | none => old
          | some path => (platform.changeDirectory before.world old path).toOption.getD old := by
  cases h with
  | @entered other spec id =>
    by_cases hother : who = other
    · simp only [directory?_place, hother, if_true, Option.some.injEq] at hwho
      exact .inl ⟨spec, id, by rw [hother], hwho.symm⟩
    · rw [directory?_place, if_neg hother] at hwho
      exact .inr ⟨directory, hwho, rfl⟩
  | @changed other path found context hold hfound =>
    by_cases hother : who = other
    · subst hother
      simp only [directory?_place, if_true, Option.some.injEq] at hwho
      exact .inr ⟨context.directory, hold, by simp [Move.pathBy, hfound, Except.toOption, hwho]⟩
    · rw [directory?_place, if_neg hother] at hwho
      exact .inr ⟨directory, hwho, by simp [Move.pathBy, Ne.symm hother]⟩
  | @stayed other path old cause hold hfound =>
    refine .inr ⟨directory, hwho, ?_⟩
    by_cases hother : who = other
    · subst hother
      rw [hold, Option.some.injEq] at hwho
      subst hwho
      simp [Move.pathBy, hfound, Except.toOption]
    · simp [Move.pathBy, Ne.symm hother]
  | passed world hpath hcall => exact .inr ⟨directory, hwho, by rw [hpath]⟩
  | _ => exact .inr ⟨directory, hwho, rfl⟩

theorem Effect.sandbox (h : before.Effect platform move after) :
    (after.sandbox = before.sandbox ∧ ∀ call, move ≠ .writeBack call) ∨
      ∃ call directory, move = .writeBack call ∧ before.calls call = some (.found directory) ∧
        after.sandbox = { before.sandbox with directory } := by
  cases h with
  | wrote hcall => exact .inr ⟨_, _, rfl, hcall, rfl⟩
  | passed world hpath hcall =>
    refine .inl ⟨rfl, ?_⟩
    rintro call rfl
    cases hcall
  | _ => exact .inl ⟨rfl, by simp⟩

theorem Effect.calls {call : Nat} {change : SharedChange} (h : before.Effect platform move after)
    (hcall : after.calls call = some change) :
    (before.calls call = some change ∧ move.call? ≠ some call) ∨
      (∃ path, move = .readBase call path ∧ change = .read before.sandbox.directory path) ∨
      ∃ base path directory, move = .resolve call ∧ before.calls call = some (.read base path) ∧
        platform.changeDirectory before.world base path = .ok directory ∧
        change = .found directory := by
  cases h with
  | passed world hpath hnone => exact .inl ⟨hcall, by simp [hnone]⟩
  | @read other path =>
    rcases calls_track_eq_some hcall with ⟨rfl, hchange⟩ | ⟨hother, hcall⟩
    · exact .inr (.inl ⟨path, rfl, (Option.some.inj hchange).symm⟩)
    · exact .inl ⟨hcall, by simp [Move.call?, hother]⟩
  | @found other base path directory hread hfound =>
    rcases calls_track_eq_some hcall with ⟨rfl, hchange⟩ | ⟨hother, hcall⟩
    · exact .inr (.inr ⟨base, path, directory, rfl, hread, hfound, (Option.some.inj hchange).symm⟩)
    · exact .inl ⟨hcall, by simp [Move.call?, hother]⟩
  | lost =>
    rcases calls_track_eq_some hcall with ⟨-, hchange⟩ | ⟨hother, hcall⟩
    · cases hchange
    · exact .inl ⟨hcall, by simp [Move.call?, hother]⟩
  | wrote =>
    rcases calls_track_eq_some hcall with ⟨-, hchange⟩ | ⟨hother, hcall⟩
    · cases hchange
    · exact .inl ⟨hcall, by simp [Move.call?, hother]⟩
  | _ => exact .inl ⟨hcall, by simp [Move.call?]⟩

/-- A change of the shared directory that nobody interrupts. -/
theorem step_uninterrupted {now : Sharing σ} {call : Nat} (hfree : now.calls call = none)
    (path : OsPath) :
    (do
      let reading ← now.step platform (.readBase call path)
      let found ← reading.step platform (.resolve call)
      found.step platform (.writeBack call)) =
      match platform.changeDirectory now.world now.sandbox.directory path with
      | .ok directory => some { now with sandbox := { now.sandbox with directory } }
      | .error _ => none := by
  have hread : now.step platform (.readBase call path) =
      some (now.track call (some (.read now.sandbox.directory path))) := by
    simp only [step, hfree]
  rw [hread, Option.bind_eq_bind, Option.bind_some]
  cases hfound : platform.changeDirectory now.world now.sandbox.directory path with
  | error cause => simp [step, track, hfound]
  | ok directory =>
    simp only [step, track, hfound, if_true, Option.bind_some]
    congr 2
    funext other
    by_cases hother : other = call <;> simp [hother, hfree]

end Sharing

/-! ## Histories -/

/-- A move and those before it, when all moves since then are of one kind. -/
def Lately (like : Move σ → Prop) (moves earlier : List (Move σ)) (move : Move σ) : Prop :=
  ∃ later, moves = earlier ++ move :: later ∧ ∀ next ∈ later, like next

theorem Lately.last {like : Move σ → Prop} (moves : List (Move σ)) (move : Move σ) :
    Lately like (moves ++ [move]) moves move :=
  ⟨[], rfl, by simp⟩

theorem Lately.snoc {like : Move σ → Prop} {moves earlier : List (Move σ)} {move next : Move σ}
    (h : Lately like moves earlier move) (hnext : like next) :
    Lately like (moves ++ [next]) earlier move := by
  obtain ⟨later, rfl, hlater⟩ := h
  refine ⟨later ++ [next], by simp, ?_⟩
  intro other hother
  rcases List.mem_append.mp hother with hother | hother
  · exact hlater other hother
  · rwa [List.mem_singleton.mp hother]

/-- A sandbox before its first use, on a platform whose files stay as they are. -/
structure Site (σ : Type) where
  platform : Platform σ
  tree : FileTree
  home : Location
  sandbox : Sandbox

namespace Site

variable {site : Site σ} {moves : List (Move σ)} {now : Sharing σ}

/-- Whether the files of a world are those of the site, as far as directories go. -/
def IsStill (site : Site σ) (world : σ) : Prop :=
  site.platform.changeDirectory world = site.tree.changeDirectory site.home

/-- Moves one after another, and what they come to. -/
inductive History (site : Site σ) : List (Move σ) → Sharing σ → Prop
  | start (world : σ) : History site [] (.unused site.sandbox world)
  | next {moves : List (Move σ)} {before after : Sharing σ} {move : Move σ}
    (earlier : History site moves before) (still : site.IsStill before.world)
    (step : before.step site.platform move = some after) : History site (moves ++ [move]) after

/-- Where a change of directory ends: where its path leads, or else where it began. -/
def arrive (site : Site σ) (directory path : OsPath) : OsPath :=
  match site.tree.directoryAt site.home (directory.join path) with
  | .ok loc => FileTree.canonical (directory.join path) loc
  | .error _ => directory

theorem toOption_getD_eq_arrive {world : σ} (hstill : site.IsStill world)
    (directory path : OsPath) :
    (site.platform.changeDirectory world directory path).toOption.getD directory =
      site.arrive directory path := by
  rw [hstill, arrive]
  split
  · rename_i loc hloc
    rw [FileTree.changeDirectory_eq_ok_iff.mpr ⟨loc, hloc, rfl⟩]
    rfl
  · rename_i cause hcause
    obtain ⟨fault, hfault⟩ := FileTree.changeDirectory_eq_error hcause
    rw [hfault]
    rfl

/-- A call has read the shared directory and is about to look for its path from there. -/
def Reads (site : Site σ) (moves : List (Move σ)) (call : Nat) (base path : OsPath) : Prop :=
  ∃ earlier before, Lately (·.call? ≠ some call) moves earlier (.readBase call path) ∧
    site.History earlier before ∧ before.sandbox.directory = base

/-- A call has found a directory and is about to write it back. -/
def Finds (site : Site σ) (moves : List (Move σ)) (call : Nat) (directory : OsPath) : Prop :=
  ∃ earlier base path loc, Lately (·.call? ≠ some call) moves earlier (.resolve call) ∧
    site.Reads earlier call base path ∧
    site.tree.directoryAt site.home (base.join path) = .ok loc ∧
    FileTree.canonical (base.join path) loc = directory

def Underway (site : Site σ) (moves : List (Move σ)) (call : Nat) : SharedChange → Prop
  | .read base path => site.Reads moves call base path
  | .found directory => site.Finds moves call directory

theorem Underway.snoc {call : Nat} {change : SharedChange} {move : Move σ}
    (h : site.Underway moves call change) (hmove : move.call? ≠ some call) :
    site.Underway (moves ++ [move]) call change := by
  cases change with
  | read base path =>
    obtain ⟨earlier, before, hlately, hread⟩ := h
    exact ⟨earlier, before, hlately.snoc hmove, hread⟩
  | found directory =>
    obtain ⟨earlier, base, path, loc, hlately, hfound⟩ := h
    exact ⟨earlier, base, path, loc, hlately.snoc hmove, hfound⟩

/-- What a call holds is what its own moves made of the directory that it read, however many others
changed the directory meanwhile. -/
theorem History.underway (h : site.History moves now) {call : Nat} {change : SharedChange}
    (hcall : now.calls call = some change) : site.Underway moves call change := by
  induction h generalizing change with
  | start world => cases hcall
  | @next moves before after move earlier still step ih =>
    rcases (Sharing.effect_of_step step).calls hcall with
      ⟨hkept, hmove⟩ | ⟨path, rfl, rfl⟩ | ⟨base, path, directory, rfl, hread, hfound, rfl⟩
    · exact (ih hkept).snoc hmove
    · exact ⟨moves, before, .last moves _, earlier, rfl⟩
    · rw [still, FileTree.changeDirectory_eq_ok_iff] at hfound
      obtain ⟨loc, hloc, hdirectory⟩ := hfound
      exact ⟨moves, base, path, loc, .last moves _, ih hread, hloc, hdirectory⟩

/-- A context is where its own changes lead from the directory that it took over. -/
theorem History.own (h : site.History moves now) {who : Nat} {directory : OsPath}
    (hwho : now.directory? who = some directory) :
    ∃ earlier before spec id later, moves = earlier ++ .enter who spec id :: later ∧
      site.History earlier before ∧
      directory = (later.filterMap (·.pathBy who)).foldl site.arrive before.sandbox.directory := by
  induction h generalizing directory with
  | start world => cases hwho
  | @next moves before after move earlier still step ih =>
    rcases (Sharing.effect_of_step step).directory? hwho with
      ⟨spec, id, rfl, rfl⟩ | ⟨old, hold, rfl⟩
    · exact ⟨moves, before, spec, id, [], rfl, earlier, rfl⟩
    -- The context was there before, so what is new is at most one more change of its own.
    · obtain ⟨front, first, spec, id, later, rfl, hfirst, rfl⟩ := ih hold
      refine ⟨front, first, spec, id, later ++ [move], by simp, hfirst, ?_⟩
      rw [List.filterMap_append, List.foldl_append]
      cases hpath : move.pathBy who with
      | none => simp [hpath]
      | some path => simp [hpath, toOption_getD_eq_arrive still]

theorem History.shared (h : site.History moves now) :
    (now.sandbox = site.sandbox ∧ ∀ call, .writeBack call ∉ moves) ∨
      ∃ call earlier directory,
        Lately (fun move => ∀ other, move ≠ .writeBack other) moves earlier (.writeBack call) ∧
        site.Finds earlier call directory ∧ now.sandbox = { site.sandbox with directory } := by
  induction h with
  | start world => exact .inl ⟨rfl, by simp⟩
  | @next moves before after move earlier still step ih =>
    rcases (Sharing.effect_of_step step).sandbox with
      ⟨hkept, hmove⟩ | ⟨call, directory, rfl, hcall, hwritten⟩
    · rw [hkept]
      rcases ih with ⟨hsame, hnone⟩ | ⟨call, front, directory, hlately, hrest⟩
      · exact .inl ⟨hsame, fun call hmem => by
          rcases List.mem_append.mp hmem with hmem | hmem
          · exact hnone call hmem
          · exact hmove call (List.mem_singleton.mp hmem).symm⟩
      · exact .inr ⟨call, front, directory, hlately.snoc hmove, hrest⟩
    · refine .inr ⟨call, moves, directory, .last moves _, earlier.underway hcall, ?_⟩
      rw [hwritten]
      rcases ih with ⟨hsame, -⟩ | ⟨_, _, _, -, -, hsame⟩ <;> rw [hsame]

/-- What the moves of others leave alone, and what changes the directory that is shared. -/
structure Isolated (site : Site σ) (moves : List (Move σ)) (now : Sharing σ) : Prop where
  own : ∀ who context, now.context? who = some context →
    ∃ earlier before spec id later, moves = earlier ++ .enter who spec id :: later ∧
      site.History earlier before ∧
      context.directory =
        (later.filterMap (·.pathBy who)).foldl site.arrive before.sandbox.directory
  -- A change that fails leaves everything as it was.
  changes : ∀ who context path, now.context? who = some context → site.IsStill now.world →
    now.step site.platform (.change who path) =
      some (match site.tree.directoryAt site.home (context.directory.join path) with
        | .ok loc =>
          now.place who
            { context with directory := FileTree.canonical (context.directory.join path) loc }
        | .error _ => now)
  commands : ∀ who context command arguments options, now.context? who = some context →
    ∃ record events after calls,
      context.run site.platform command arguments options now.world = (record, events, after) ∧
      context.run site.platform.recorded command arguments options (now.world, []) =
        (record, events, after, calls) ∧
      record.directory = options.directory.getD context.directory ∧
      calls.map (·.directory) =
        if record.denied then [] else [options.directory.getD context.directory]
  shared : (now.sandbox = site.sandbox ∧ ∀ call, .writeBack call ∉ moves) ∨
    ∃ call earlier directory,
      Lately (fun move => ∀ other, move ≠ .writeBack other) moves earlier (.writeBack call) ∧
      site.Finds earlier call directory ∧ now.sandbox = { site.sandbox with directory }
  written : ∀ move after, now.step site.platform move = some after →
    after.sandbox ≠ now.sandbox → ∃ call directory, move = .writeBack call ∧
      site.Finds moves call directory ∧ after.sandbox = { now.sandbox with directory }

theorem step_change {who : Nat} {context : Context} {path : OsPath}
    (hwho : now.context? who = some context) (hstill : site.IsStill now.world) :
    now.step site.platform (.change who path) =
      some (match site.tree.directoryAt site.home (context.directory.join path) with
        | .ok loc =>
          now.place who
            { context with directory := FileTree.canonical (context.directory.join path) loc }
        | .error _ => now) := by
  simp only [Sharing.step, hwho, Option.map_some, Context.changeDirectory]
  rw [hstill]
  cases hdir : site.tree.directoryAt site.home (context.directory.join path) with
  | ok loc =>
    rw [FileTree.changeDirectory_eq_ok_iff.mpr ⟨loc, hdir, rfl⟩]
    rfl
  | error cause =>
    obtain ⟨fault, hfault⟩ := FileTree.changeDirectory_eq_error hdir
    rw [hfault]
    rfl

/-- In every history, whatever the order of its moves, each context has a directory of its own. -/
theorem History.directories_isolated (h : site.History moves now) : site.Isolated moves now where
  own who context hwho := h.own (Sharing.directory?_of_context? hwho)
  changes who context path hwho hstill := step_change hwho hstill
  commands who context command arguments options _ :=
    context.run_recorded site.platform command arguments options now.world
  shared := h.shared
  written move after hstep hchanged := by
    rcases (Sharing.effect_of_step hstep).sandbox with
      ⟨hkept, -⟩ | ⟨call, directory, rfl, hcall, hwritten⟩
    · exact absurd hkept hchanged
    · exact ⟨call, directory, rfl, h.underway hcall, hwritten⟩

/-! ## Calls that cross -/

theorem history_of_foldlM {earlier : List (Move σ)} {before : Sharing σ}
    (hearlier : site.History earlier before) (hstill : ∀ world, site.IsStill world)
    (hrun : moves.foldlM (Sharing.step site.platform) before = some now) :
    site.History (earlier ++ moves) now := by
  induction moves generalizing earlier before with
  | nil =>
    cases hrun
    rwa [List.append_nil]
  | cons move rest ih =>
    rw [List.foldlM_cons, Option.bind_eq_bind, Option.bind_eq_some_iff] at hrun
    obtain ⟨next, hstep, hrest⟩ := hrun
    simpa using ih (hearlier.next (hstill _) hstep) hrest

def crossingTree : FileTree :=
  ⟨[(["a"], .directory 0o755), (["b"], .directory 0o755), (["b", "c"], .directory 0o755)]⟩

def crossing : Site Unit where
  platform :=
    { start call world :=
        (.ran none 0 (call.directory.display ++ "\n").toUTF8 .empty (.exited 0 none), world)
      changeDirectory _ := crossingTree.changeDirectory [] }
  tree := crossingTree
  home := []
  sandbox := ⟨.standard, "/"⟩

/-- Two calls start from one directory, and a context is made between their writes. -/
def crossingMoves : List (Move Unit) :=
  let spec := AgentSpec.new "Wanderer" "moves around" "1"
  [.readBase 0 "a", .enter 0 spec .nil, .readBase 1 "b", .resolve 0, .change 0 "b", .writeBack 0,
    .resolve 1, .enter 1 spec .nil, .writeBack 1, .change 1 "missing", .change 0 "c",
    .run 0 "pwd" [] .plain]

theorem directories_isolated_crossing : ∃ now, crossing.History crossingMoves now ∧
    crossing.Isolated crossingMoves now ∧ now.directory? 0 = some "/b/c" ∧
    now.directory? 1 = some "/a" ∧ now.sandbox.directory = "/b" := by
  have hend : (crossingMoves.foldlM (Sharing.step crossing.platform)
      (.unused crossing.sandbox ())).map
      (fun now => (now.directory? 0, now.directory? 1, now.sandbox.directory)) =
        some (some (.ofText "/b/c"), some (.ofText "/a"), .ofText "/b") := by
    decide +kernel
  obtain ⟨now, hrun, hnow⟩ := Option.map_eq_some_iff.mp hend
  simp only [Prod.mk.injEq] at hnow
  have hhistory : crossing.History crossingMoves now :=
    history_of_foldlM (.start ()) (fun _ => rfl) hrun
  exact ⟨now, hhistory, hhistory.directories_isolated, hnow⟩

end Site
end Agentry
