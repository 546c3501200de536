import Agentry.Cli.Basic
import Agentry.Proofs.Files.OsPath
import Agentry.Proofs.Invocation.Isolation
import Agentry.Proofs.Invocation.Lifecycle
/-!
# Records tell what was done

A command is given to the platform exactly if the denylist does not name it or an override stands,
and the record says which: its six fields about the end of the command agree with each other on
every way out. So whoever only sees a record or the result of a run knows whether anything was
started. The exit code of a command line tells of a success as well, but for one that is to be
written as a document and cannot be, its directory being no text.
-/
namespace Agentry

/-! ## Fields that agree -/

/-- What the fields of a record say about each other. -/
structure CommandRecord.Consistent (record : CommandRecord) : Prop where
  range : -1 ≤ record.exitCode ∧ record.exitCode ≤ 255
  success_iff : record.success = true ↔ record.exitCode = 0
  timedOut : record.timedOut = true →
    record.exitCode = -1 ∧ record.success = false ∧ record.denied = false
  denied : record.denied = true →
    record.pid = none ∧ record.stdout = "" ∧ record.exitCode = -1 ∧ record.success = false ∧
      record.timedOut = false

namespace Ending

theorem exitCode_range (ending : Ending) : -1 ≤ ending.exitCode ∧ ending.exitCode ≤ 255 := by
  cases ending with
  | exited code _ =>
    have := code.toNat_lt
    simp only [exitCode]
    omega
  | _ => simp [exitCode]

theorem success_iff (ending : Ending) : ending.success = true ↔ ending.exitCode = 0 := by
  cases ending with
  | exited code _ =>
    rw [success, exitCode, decide_eq_true_iff, ← UInt8.toNat_inj]
    exact Int.natCast_eq_zero.symm
  | _ => simp [success, exitCode]

theorem timedOut_ends {ending : Ending} (h : ending.timedOutFlag = true) :
    ending.exitCode = -1 ∧ ending.success = false := by
  cases ending with
  | timedOut _ => exact ⟨rfl, rfl⟩
  | _ => cases h

end Ending

namespace CommandRecord

theorem consistent_failure (line : String) (directory : OsPath) (stderr : String) (denied : Bool) :
    (failure line directory stderr denied).Consistent where
  range := by simp [failure]
  success_iff := by simp [failure]
  timedOut h := by cases h
  denied _ := ⟨rfl, rfl, rfl, rfl, rfl⟩

theorem consistent_ofAttempt (call : ProgramCall) (line : String) (attempt : Attempt) :
    (ofAttempt call line attempt).1.Consistent := by
  cases attempt with
  | notStarted cause => exact consistent_failure _ _ _ _
  | ran pid elapsed stdout stderr ending =>
    exact ⟨ending.exitCode_range, ending.success_iff,
      fun h => ⟨(Ending.timedOut_ends h).1, (Ending.timedOut_ends h).2, rfl⟩, fun h => by cases h⟩

theorem toJson_of_isText {record : CommandRecord} (h : record.directory.IsText) :
    ∃ document, record.toJson = .ok document := by
  obtain ⟨text, htext⟩ := h
  rw [toJson, htext, OsPath.toJson, OsPath.text?_ofText]
  exact ⟨_, rfl⟩

theorem toJson_of_not_isText {record : CommandRecord} (h : ¬record.directory.IsText) :
    record.toJson = .error .pathNotText := by
  rw [toJson, OsPath.toJson, OsPath.text?_eq_none h]
  rfl

end CommandRecord

/-! ## Admission -/

variable {σ : Type}

namespace Sandbox

/-- A sandbox lets a command through that the denylist does not name, and with an override any. -/
def Admits (sandbox : Sandbox) (command : String) (options : ExecOptions) : Prop :=
  Denylist.matching command = none ∨ options.allowUnsafe = true ∨
    sandbox.config.allowUnsafe = true

instance (sandbox : Sandbox) (command : String) (options : ExecOptions) :
    Decidable (sandbox.Admits command options) := by
  unfold Admits
  infer_instance

theorem refusedFor_eq_none_iff {sandbox : Sandbox} {command : String} {options : ExecOptions} :
    sandbox.refusedFor command options = none ↔ sandbox.Admits command options := by
  simp only [refusedFor, Admits, ← Bool.or_eq_true]
  split
  · rename_i hunsafe
    exact ⟨fun _ => .inr hunsafe, fun _ => rfl⟩
  · rename_i hunsafe
    exact ⟨.inl, fun h => h.resolve_right hunsafe⟩

theorem not_admits_of_refusedFor {sandbox : Sandbox} {command : String} {options : ExecOptions}
    {entry : String} (h : sandbox.refusedFor command options = some entry) :
    ¬sandbox.Admits command options := by
  rw [← refusedFor_eq_none_iff, h]
  exact Option.some_ne_none entry

/-- What a sandbox does with a command: the programs that it asks a platform to start, and what its
record says about them. -/
structure Accounts (sandbox : Sandbox) (platform : Platform σ) (command : String)
    (arguments : List String) (options : ExecOptions) (world : σ) (record : CommandRecord)
    (calls : List ProgramCall) : Prop where
  asked : calls =
    if sandbox.Admits command options then [sandbox.call command arguments options] else []
  denied_iff : record.denied = true ↔ ¬sandbox.Admits command options
  consistent : record.Consistent
  /-- Where no program was started there is no process. -/
  unstarted : (∀ call ∈ calls, ∃ cause, (platform.start call world).1 = .notStarted cause) →
    record.pid = none

theorem execute_refused {sandbox : Sandbox} {command entry : String} {options : ExecOptions}
    (h : sandbox.refusedFor command options = some entry) (start : Starter σ)
    (arguments : List String) (world : σ) :
    sandbox.execute start command arguments options world =
      (.failure (commandLine command arguments) (sandbox.call command arguments options).directory
        (refusal command entry) true, [.denied (commandLine command arguments) entry], world) := by
  simp only [execute, h]

theorem execute_admitted {sandbox : Sandbox} {command : String} {options : ExecOptions}
    (h : sandbox.refusedFor command options = none) (start : Starter σ)
    (arguments : List String) (world : σ) :
    sandbox.execute start command arguments options world =
      let call := sandbox.call command arguments options
      let told := CommandRecord.ofAttempt call (commandLine command arguments) (start call world).1
      (told.1, told.2, (start call world).2) := by
  simp only [execute, h]

theorem execute_accounts (sandbox : Sandbox) (platform : Platform σ) (command : String)
    (arguments : List String) (options : ExecOptions) (world : σ) (before : List ProgramCall) :
    ∃ record events after calls,
      sandbox.execute platform.start command arguments options world = (record, events, after) ∧
        sandbox.execute platform.recorded.start command arguments options (world, before) =
          (record, events, after, before ++ calls) ∧
        sandbox.Accounts platform command arguments options world record calls := by
  cases hrefused : sandbox.refusedFor command options with
  | some entry =>
    have hadmits := not_admits_of_refusedFor hrefused
    refine ⟨_, _, _, [], execute_refused hrefused _ _ _, ?_, ?_⟩
    · rw [execute_refused hrefused, List.append_nil]
    · exact ⟨(if_neg hadmits).symm, ⟨fun _ => hadmits, fun _ => rfl⟩,
        CommandRecord.consistent_failure _ _ _ _, fun _ => rfl⟩
  | none =>
    have hadmits := refusedFor_eq_none_iff.mp hrefused
    obtain ⟨-, hdenied⟩ := CommandRecord.ofAttempt_directory
      (sandbox.call command arguments options) (commandLine command arguments)
      (platform.start (sandbox.call command arguments options) world).1
    refine ⟨_, _, _, [_], execute_admitted hrefused _ _ _, execute_admitted hrefused _ _ _, ?_⟩
    refine ⟨(if_pos hadmits).symm, ?_, CommandRecord.consistent_ofAttempt _ _ _, ?_⟩
    · rw [hdenied]
      exact ⟨nofun, fun h => absurd hadmits h⟩
    · intro hunstarted
      obtain ⟨cause, hcause⟩ := hunstarted _ (List.mem_singleton_self _)
      rw [hcause]
      rfl

theorem execute_directory (sandbox : Sandbox) (start : Starter σ) (command : String)
    (arguments : List String) (options : ExecOptions) (world : σ) :
    (sandbox.execute start command arguments options world).1.directory =
      options.directory.getD sandbox.directory := by
  cases hrefused : sandbox.refusedFor command options with
  | some entry => rw [execute_refused hrefused, CommandRecord.failure, call]
  | none =>
    rw [execute_admitted hrefused]
    exact (CommandRecord.ofAttempt_directory _ _ _).1

variable {sandbox : Sandbox} {platform : Platform σ} {command : String} {arguments : List String}
  {options : ExecOptions} {world : σ} {record : CommandRecord} {calls : List ProgramCall}

theorem Accounts.arguments_eq
    (h : sandbox.Accounts platform command arguments options world record calls) :
    ∀ call ∈ calls, call.arguments = arguments := by
  intro call hcall
  rw [h.asked] at hcall
  split at hcall
  · rw [List.mem_singleton.mp hcall, Sandbox.call]
  · cases hcall

theorem Accounts.matching_eq_none
    (h : sandbox.Accounts platform command arguments options world record calls)
    (hoptions : options.allowUnsafe = false) (hconfig : sandbox.config.allowUnsafe = false) :
    ∀ call ∈ calls, Denylist.matching call.program = none := by
  intro call hcall
  rw [h.asked] at hcall
  split at hcall
  · rename_i hadmits
    have hmatching : Denylist.matching command = none := by
      simpa [Admits, hoptions, hconfig] using hadmits
    rwa [List.mem_singleton.mp hcall]
  · cases hcall

end Sandbox

/-! ## Behaviors -/

theorem Behavior.sandbox_moved {platform : Platform σ} {context entered : Context} {world : σ}
    {path : Option OsPath} (h : moved platform context world path = .ok entered) :
    entered.sandbox = context.sandbox := by
  cases path with
  | none =>
    cases h
    rfl
  | some path =>
    simp only [moved, Context.changeDirectory] at h
    cases hchange : platform.changeDirectory world context.directory path with
    | error cause =>
      rw [hchange] at h
      cases h
    | ok directory =>
      rw [hchange] at h
      cases h
      rfl

/-- A behavior that runs commands hands them the arguments of its input, and starts nothing that the
denylist names unless all is allowed. -/
theorem Behavior.command_calls (platform : Platform σ) (context : Context) (input : Input)
    (world : σ) (before : List ProgramCall) :
    ∃ conclusion events after calls,
      command platform context input world = (conclusion, events, after) ∧
        command platform.recorded context input (world, before) =
          (conclusion, events, after, before ++ calls) ∧
        (∀ call ∈ calls, call.arguments = (input.list? "args").getD []) ∧
        (context.sandbox.config.allowUnsafe = false →
          ∀ call ∈ calls, Denylist.matching call.program = none) := by
  simp only [command]
  cases commandOf input with
  | none => exact ⟨_, _, _, [], rfl, by rw [List.append_nil], by simp, by simp⟩
  | some command =>
    -- The recorded platform finds directories as the platform itself does.
    have hmoved : moved platform.recorded context (world, before) (directoryOf input) =
        moved platform context world (directoryOf input) := by
      cases directoryOf input <;> rfl
    rw [hmoved]
    cases hcontext : moved platform context world (directoryOf input) with
    | error cause => exact ⟨_, _, _, [], rfl, by rw [List.append_nil], by simp, by simp⟩
    | ok entered =>
      obtain ⟨record, events, after, calls, hplain, hrecorded, haccounts⟩ :=
        entered.sandbox.execute_accounts platform command ((input.list? "args").getD [])
          { ExecOptions.plain with directory := some (ExecOptions.plain.directory.getD
            entered.directory) } world before
      refine ⟨concludeCommand record, events, after, calls, ?_, ?_, haccounts.arguments_eq, ?_⟩
      · simp only [Context.run, hplain]
      · simp only [Context.run, hrecorded]
      · intro hsafe
        rw [← sandbox_moved hcontext] at hsafe
        exact haccounts.matching_eq_none rfl hsafe

/-- The same of a run of an agent that has this behavior. -/
theorem Runner.report_command_calls (spec : AgentSpec) (config : RunConfig)
    (platform : Platform σ) (sandbox : Sandbox) (stamp : RunStamp) (arguments : List String)
    (world : σ) (before : List ProgramCall) (h : sandbox.config.allowUnsafe = false) :
    ∃ result events after calls,
      (new spec Behavior.command config).report platform sandbox stamp arguments world =
          ⟨result, events, after⟩ ∧
        (new spec Behavior.command config).report platform.recorded sandbox stamp arguments
          (world, before) = ⟨result, events, after, before ++ calls⟩ ∧
        ∀ call ∈ calls, Denylist.matching call.program = none := by
  let request : RunRequest := ⟨sandbox, stamp, arguments⟩
  cases hinput : Input.coerce spec.inputs arguments config.strictNumbers with
  | error cause =>
    refine ⟨_, _, _, [], @report_of_refused _ _ _ request _ _ hinput, ?_, by simp⟩
    rw [List.append_nil]
    exact @report_of_refused _ _ _ request _ _ hinput
  | ok input =>
    obtain ⟨conclusion, events, after, calls, hplain, hrecorded, -, hcalls⟩ :=
      Behavior.command_calls platform (Context.new spec stamp.id sandbox) input world before
    exact ⟨_, _, _, calls, @report_of_called _ _ _ request _ _ _ _ _ hinput hplain,
      @report_of_called _ _ _ request _ _ _ _ _ hinput hrecorded, hcalls h⟩

/-! ## Exit codes -/

namespace Cli

theorem exitCodeOf_eq {record : CommandRecord} (h : record.Consistent) :
    exitCodeOf record = if 0 ≤ record.exitCode then record.exitCode.toNat else 1 := by
  simp [exitCodeOf, h.range.2]

theorem exitCodeOf_eq_zero_iff {record : CommandRecord} (h : record.Consistent) :
    exitCodeOf record = 0 ↔ record.success = true := by
  rw [h.success_iff, exitCodeOf_eq h]
  split <;> omega

theorem exitCodeOf_le {record : CommandRecord} (h : record.Consistent) :
    exitCodeOf record ≤ 255 := by
  have := h.range.2
  rw [exitCodeOf_eq h]
  split <;> omega

/-- What a reply tells of a command in a directory, given its record. -/
structure Tells (json : Bool) (directory : OsPath) (record : CommandRecord) (reply : Reply) :
    Prop where
  octet : reply.exitCode ≤ 255
  zero_iff : reply.exitCode = 0 ↔
    record.success = true ∧ (json = true → directory.IsText)
  -- Nothing is printed then, not even what the command wrote.
  unprinted : json = true → ¬directory.IsText →
    reply = ⟨1, "", "Error: path contains invalid UTF-8 characters\n"⟩

theorem exec_tells (world : World) (settings : Settings) (directory : Option OsPath)
    (allowUnsafe : Bool) (command : String) (arguments : List String) (disk : Disk)
    {record : CommandRecord} (hconsistent : record.Consistent)
    (hdirectory : record.directory = directory.getD world.directory)
    (hrecord : ((sandboxOf world settings).execute world.platform.start command arguments
      ⟨directory, none, allowUnsafe, []⟩ disk).1 = record) :
    Tells settings.json (directory.getD world.directory) record
      (exec world settings directory allowUnsafe command arguments disk).1 := by
  have hzero := exitCodeOf_eq_zero_iff hconsistent
  have hoctet := exitCodeOf_le hconsistent
  rw [← hdirectory]
  simp only [exec, hrecord]
  cases settings.json with
  | false => exact ⟨hoctet, by simp [hzero], by simp⟩
  | true =>
    by_cases htext : record.directory.IsText
    · obtain ⟨document, hdocument⟩ := CommandRecord.toJson_of_isText htext
      simp only [hdocument, if_true]
      exact ⟨hoctet, by simp [hzero, htext], fun _ h => absurd htext h⟩
    · simp only [CommandRecord.toJson_of_not_isText htext, if_true]
      exact ⟨by decide, by simp [htext, Trouble.reply], fun _ _ => by decide +kernel⟩

end Cli

/-- What is started, what the record says of it, and what is made of the record by an agent that
runs commands and on the command line. -/
theorem Sandbox.execution_accounted {σ : Type} (platform : Platform σ) (sandbox : Sandbox)
    (state : σ) (before : List ProgramCall) :
    (∀ (command : String) (arguments : List String) (options : ExecOptions),
      ∃ record events after calls,
        sandbox.execute platform.start command arguments options state = (record, events, after) ∧
          sandbox.execute platform.recorded.start command arguments options (state, before) =
            (record, events, after, before ++ calls) ∧
          sandbox.Accounts platform command arguments options state record calls) ∧
    (∀ (spec : AgentSpec) (config : RunConfig) (stamp : RunStamp) (arguments : List String),
      sandbox.config.allowUnsafe = false →
      ∃ result events after calls,
        (Runner.new spec Behavior.command config).report platform sandbox stamp arguments state =
            ⟨result, events, after⟩ ∧
          (Runner.new spec Behavior.command config).report platform.recorded sandbox stamp arguments
            (state, before) = ⟨result, events, after, before ++ calls⟩ ∧
          ∀ call ∈ calls, Denylist.matching call.program = none) ∧
    ∀ (world : Cli.World) (disk : Disk) (settings : Cli.Settings) (directory : Option OsPath)
      (allowUnsafe : Bool) (command : String) (arguments : List String),
      let record := ((Cli.sandboxOf world settings).execute world.platform.start command arguments
        ⟨directory, none, allowUnsafe, []⟩ disk).1
      let reply :=
        (Cli.perform world settings (.exec directory allowUnsafe command arguments) disk).1
      Cli.Tells settings.json (directory.getD world.directory) record reply ∧
        ∀ line, Cli.parse world.environment line =
            .ok (settings, .exec directory allowUnsafe command arguments) →
          (Cli.answer world line disk).1 = reply := by
  refine ⟨fun command arguments options =>
      sandbox.execute_accounts platform command arguments options state before,
    fun spec config stamp arguments =>
      Runner.report_command_calls spec config platform sandbox stamp arguments state before, ?_⟩
  intro world disk settings directory allowUnsafe command arguments
  obtain ⟨record, events, after, calls, hplain, -, haccounts⟩ :=
    (Cli.sandboxOf world settings).execute_accounts world.platform command arguments
      ⟨directory, none, allowUnsafe, []⟩ disk []
  have hdirectory := Sandbox.execute_directory (Cli.sandboxOf world settings) world.platform.start
    command arguments ⟨directory, none, allowUnsafe, []⟩ disk
  rw [hplain] at hdirectory
  simp only [hplain]
  constructor
  · exact Cli.exec_tells world settings directory allowUnsafe command arguments disk
      haccounts.consistent hdirectory (congrArg Prod.fst hplain)
  · intro line hparse
    simp only [Cli.answer, hparse]

/-- A platform on which whatever is started ends well. -/
def Platform.obliging : Platform σ where
  start _ world := (.ran (some 7) 0 .empty .empty (.exited 0 none), world)
  changeDirectory _ _ path := .ok path

def errand : AgentSpec :=
  (AgentSpec.new "Errand" "runs what it is told" "1").withInput "command" (.mandatory .string)

/-- The report of an errand in a sandbox that allows nothing unsafe. -/
def errandReport (command : String) : Runner.Report (Unit × List ProgramCall) :=
  (Runner.new errand Behavior.command .lenient).report Platform.obliging.recorded
    ⟨.standard, "/"⟩ ⟨.nil, ⟨0, 0, 0⟩⟩ [command] ((), [])

def obligingWorld : Cli.World := ⟨.obliging, [], "/", ⟨.nil, ⟨0, 0, 0⟩⟩⟩

theorem Sandbox.execution_accounted_obliging :
    (∃ result events calls, errandReport "/bin/echo" = ⟨result, events, (), calls⟩ ∧
      calls.map (·.program) = ["/bin/echo"] ∧
      ∀ call ∈ calls, Denylist.matching call.program = none) ∧
    (∃ result events calls, errandReport "/sbin/ReBoot" = ⟨result, events, (), calls⟩ ∧
      calls = [] ∧ ∀ call ∈ calls, Denylist.matching call.program = none) ∧
    let settings : Cli.Settings := ⟨true, "agents", 30000, false⟩
    let line := ["--json", "exec", "--allow-unsafe", "--", "reboot"]
    let disk : Disk := .sound ⟨[]⟩ []
    let record := ((Cli.sandboxOf obligingWorld settings).execute obligingWorld.platform.start
      "reboot" [] ⟨none, none, true, []⟩ disk).1
    Cli.parse obligingWorld.environment line = .ok (settings, .exec none true "reboot" []) ∧
      Cli.Tells true "/" record (Cli.answer obligingWorld line disk).1 ∧ record.success = true := by
  obtain ⟨-, hbehavior, hexec⟩ :=
    Sandbox.execution_accounted Platform.obliging ⟨.standard, "/"⟩ () []
  have hreport : ∀ command, ∃ result events calls,
      errandReport command = ⟨result, events, (), calls⟩ ∧
        ∀ call ∈ calls, Denylist.matching call.program = none := by
    intro command
    obtain ⟨result, events, after, calls, -, hrecorded, hcalls⟩ :=
      hbehavior errand .lenient ⟨.nil, ⟨0, 0, 0⟩⟩ [command] rfl
    exact ⟨result, events, calls, hrecorded, hcalls⟩
  refine ⟨?_, ?_, ?_⟩
  · obtain ⟨result, events, calls, hrecorded, hcalls⟩ := hreport "/bin/echo"
    have hasked : (errandReport "/bin/echo").world.2.map (·.program) = ["/bin/echo"] := by
      decide +kernel
    exact ⟨result, events, calls, hrecorded, by rwa [hrecorded] at hasked, hcalls⟩
  · obtain ⟨result, events, calls, hrecorded, hcalls⟩ := hreport "/sbin/ReBoot"
    have hasked : (errandReport "/sbin/ReBoot").world.2 = [] := by decide +kernel
    exact ⟨result, events, calls, hrecorded, by rwa [hrecorded] at hasked, hcalls⟩
  · obtain ⟨htells, hanswer⟩ := hexec obligingWorld (.sound ⟨[]⟩ []) ⟨true, "agents", 30000, false⟩
      none true "reboot" []
    have hparse : Cli.parse obligingWorld.environment
        ["--json", "exec", "--allow-unsafe", "--", "reboot"] =
          .ok (⟨true, "agents", 30000, false⟩, .exec none true "reboot" []) := by rfl
    refine ⟨hparse, ?_, by decide +kernel⟩
    rw [hanswer _ hparse]
    exact htells

/-- A command that goes well in a directory whose path is no text has the exit code 1 if its record
is asked for, and its own if not. -/
theorem Sandbox.exec_success_unprinted :
    let world : Cli.World := ⟨.obliging, [], ⟨[0xff]⟩, ⟨.nil, ⟨0, 0, 0⟩⟩⟩
    let disk : Disk := .sound ⟨[]⟩ []
    let settings : Cli.Settings := ⟨true, "agents", 30000, false⟩
    ((Cli.sandboxOf world settings).execute world.platform.start "true" []
        ⟨none, none, false, []⟩ disk).1.success = true ∧
      (Cli.answer world ["--json", "exec", "--", "true"] disk).1 =
        ⟨1, "", "Error: path contains invalid UTF-8 characters\n"⟩ ∧
      (Cli.answer world ["exec", "--", "true"] disk).1 = .ok "" := by
  decide +kernel

end Agentry
