import Agentry.Proofs.Artifact.Acceptance
import Agentry.Proofs.Invocation.Lists
/-!
# Reasons of failed commands

A command that fails is reported with a reason: what it wrote to its standard error and what the
sandbox had to say about it, or its exit code if that is nothing at all. The reason can be read but
in one case. Of a program that wrote blanks only, and of which the sandbox has nothing to say, the
exit code is not told, for it did not write nothing; and no blank of what it wrote is left. A run
can also fail after its command went well, as the record of it has no document in a directory whose
path is no text; the path is what it is reported with then.
-/
namespace Agentry

namespace Text

/-! ## Ink -/

variable {s t : String}

instance (s : String) : Decidable (HasInk s) :=
  decidable_of_iff (isAllBlank s = false) <| by
    rw [← Bool.not_eq_true, isAllBlank_iff, Classical.not_not]

theorem hasInk_append : HasInk (s ++ t) ↔ HasInk s ∨ HasInk t := by
  simp only [HasInk, String.toList_append, List.mem_append, or_and_right, exists_or]

theorem HasInk.append (h : HasInk s) (t : String) : HasInk (s ++ t) :=
  hasInk_append.mpr (Or.inl h)

theorem HasInk.ne_empty (h : HasInk s) : s ≠ "" := by
  intro hempty
  rw [hempty] at h
  exact absurd h (by decide)

theorem hasInk_trim : HasInk (trim s) ↔ HasInk s := by
  rw [HasInk, trim, String.toList_ofList]
  exact exists_congr fun c => and_congr_left fun hc => mem_trimChars_iff hc

end Text

open Text (HasInk hasInk_append hasInk_trim)

/-! ## Notes -/

namespace Ending

variable {limitMs : Nat} {note : String}

theorem note_eq_none_iff {ending : Ending} : ending.note limitMs = none ↔
    (∃ code, ending = .exited code none) ∨ ending = .signalled none := by
  cases ending with
  | exited code fault => cases fault <;> simp [Ending.note, captureNote]
  | signalled fault => cases fault <;> simp [Ending.note, captureNote]
  | unwaitable cause => simp [Ending.note]
  | timedOut fault => simp [Ending.note]

theorem hasInk_captureNote {fault : Option IoError} (h : captureNote fault = some note) :
    HasInk note := by
  obtain ⟨cause, -, rfl⟩ := Option.map_eq_some_iff.mp h
  exact .append (by decide) _

theorem hasInk_note {ending : Ending} (h : ending.note limitMs = some note) : HasInk note := by
  cases ending with
  | exited code fault => exact hasInk_captureNote h
  | signalled fault => exact hasInk_captureNote h
  | unwaitable cause =>
    cases h
    exact .append (by decide) _
  | timedOut fault =>
    cases h
    exact .append (.append (by decide) _) _

end Ending

theorem hasInk_withNote {note : String} (h : HasInk note) (stderr : String) :
    HasInk (withNote stderr (some note)) := by
  rw [withNote]
  split
  · exact hasInk_append.mpr (Or.inr h)
  · exact hasInk_append.mpr (Or.inr h)

/-! ## Records -/

/-- A program that wrote something to its standard error, but only blanks, and ended in a way that
the sandbox adds nothing to. -/
def Attempt.Mute : Attempt → Prop
  | .notStarted _ => False
  | .ran _ _ _ stderr ending =>
    ((∃ code, ending = .exited code none) ∨ ending = .signalled none) ∧
      Text.decodeLossy stderr ≠ "" ∧ ¬HasInk (Text.decodeLossy stderr)

/-- A program that ran to its end, with the exit code 0. -/
def Attempt.Succeeds : Attempt → Prop
  | .notStarted _ => False
  | .ran _ _ _ _ ending => ∃ fault, ending = .exited 0 fault

/-- The standard error of a record is blank without being empty. -/
def CommandRecord.Mute (record : CommandRecord) : Prop :=
  record.stderr ≠ "" ∧ ¬HasInk record.stderr

theorem Behavior.hasInk_failureReason {record : CommandRecord} :
    HasInk (failureReason record) ↔ ¬record.Mute := by
  rw [failureReason, CommandRecord.Mute]
  by_cases hempty : record.stderr = ""
  · rw [if_pos (by simp [hempty])]
    exact iff_of_true (.append (.append (.append (by decide) _) _) _) fun h => h.1 hempty
  · rw [if_neg (by simpa using hempty), hasInk_trim]
    simp [hempty]

namespace CommandRecord

theorem not_mute_of_hasInk {record : CommandRecord} (h : HasInk record.stderr) : ¬record.Mute :=
  fun hmute => hmute.2 h

theorem mute_ofAttempt_iff (call : ProgramCall) (line : String) (attempt : Attempt) :
    (ofAttempt call line attempt).1.Mute ↔ attempt.Mute := by
  cases attempt with
  | notStarted cause =>
    exact iff_of_false (not_mute_of_hasInk (.append (.append (.append (by decide) _) _) _)) id
  | ran pid elapsed stdout stderr ending =>
    cases hnote : ending.note call.limitMs with
    | none =>
      simp only [Mute, ofAttempt, hnote, withNote, Attempt.Mute, Ending.note_eq_none_iff.mp hnote,
        true_and]
    | some note =>
      have hends : ¬((∃ code, ending = .exited code none) ∨ ending = .signalled none) := by
        rw [← @Ending.note_eq_none_iff call.limitMs, hnote]
        exact Option.some_ne_none note
      refine iff_of_false (not_mute_of_hasInk ?_) fun hmute => hends hmute.1
      simp only [ofAttempt, hnote]
      exact hasInk_withNote (Ending.hasInk_note hnote) _

theorem success_ofAttempt_iff (call : ProgramCall) (line : String) (attempt : Attempt) :
    (ofAttempt call line attempt).1.success = true ↔ attempt.Succeeds := by
  cases attempt with
  | notStarted cause => exact iff_of_false Bool.false_ne_true id
  | ran pid elapsed stdout stderr ending =>
    cases ending <;> simp [ofAttempt, Ending.success, Attempt.Succeeds]

end CommandRecord

variable {σ : Type}

theorem Sandbox.mute_execute_iff (sandbox : Sandbox) (start : Starter σ) (command : String)
    (arguments : List String) (options : ExecOptions) (world : σ) :
    (sandbox.execute start command arguments options world).1.Mute ↔
      sandbox.Admits command options ∧
        (start (sandbox.call command arguments options) world).1.Mute := by
  cases hrefused : sandbox.refusedFor command options with
  | some entry =>
    have hadmits := not_admits_of_refusedFor hrefused
    have hink : HasInk (refusal command entry) :=
      .append (.append (.append (.append (by decide) _) _) _) _
    rw [execute_refused hrefused]
    exact iff_of_false (CommandRecord.not_mute_of_hasInk hink) fun h => hadmits h.1
  | none =>
    have hadmits := refusedFor_eq_none_iff.mp hrefused
    rw [execute_admitted hrefused, and_iff_right hadmits]
    exact CommandRecord.mute_ofAttempt_iff _ _ _

theorem Sandbox.success_execute_iff (sandbox : Sandbox) (start : Starter σ) (command : String)
    (arguments : List String) (options : ExecOptions) (world : σ) :
    (sandbox.execute start command arguments options world).1.success = true ↔
      sandbox.Admits command options ∧
        (start (sandbox.call command arguments options) world).1.Succeeds := by
  cases hrefused : sandbox.refusedFor command options with
  | some entry =>
    rw [execute_refused hrefused]
    exact iff_of_false Bool.false_ne_true fun h => not_admits_of_refusedFor hrefused h.1
  | none =>
    rw [execute_admitted hrefused, and_iff_right (refusedFor_eq_none_iff.mp hrefused)]
    exact CommandRecord.success_ofAttempt_iff _ _ _

/-! ## Failures -/

/-- A platform on which every start comes to one attempt. -/
def Platform.answering (attempt : Attempt) : Platform σ where
  start _ world := (attempt, world)
  changeDirectory _ _ path := .ok path

/-- What a command comes to is what the record of it comes to. -/
theorem Behavior.command_concludes {platform : Platform σ} {context : Context} {world : σ}
    {input : Input} {program : String} {directory : OsPath}
    (hprogram : commandOf input = some program)
    (hdirectory : platform.Enters world context.directory (input.text? "cwd") directory) :
    (command platform context input world).1 =
      concludeCommand (context.sandbox.execute platform.start program
        ((input.list? "args").getD []) { ExecOptions.plain with directory := some directory }
        world).1 := by
  simp only [command, hprogram, moved_of_enters hdirectory]
  rfl

/-- A command that went well fails a run only where its record has no document. -/
theorem Behavior.outcome_of_success {record : CommandRecord} (h : record.success = true) :
    (∃ output, Runner.outcomeOf (concludeCommand record) = .succeeded output) ∨
      ¬record.directory.IsText ∧ Runner.outcomeOf (concludeCommand record) =
        .failed "path contains invalid UTF-8 characters" := by
  simp only [concludeCommand, if_pos h]
  by_cases htext : record.directory.IsText
  · obtain ⟨document, hdocument⟩ := CommandRecord.toJson_of_isText htext
    rw [hdocument]
    exact .inl ⟨document, rfl⟩
  · rw [CommandRecord.toJson_of_not_isText htext]
    exact .inr ⟨htext, rfl⟩

namespace Runner

variable {spec : AgentSpec} {config : RunConfig} {platform : Platform σ} {sandbox : Sandbox}
  {stamp : RunStamp} {arguments : List String} {world : σ} {input : Input}
  {program : String} {directory : OsPath}

/-- The record of the command of a run. -/
def record (platform : Platform σ) (sandbox : Sandbox) (input : Input) (program : String)
    (directory : OsPath) (world : σ) : CommandRecord :=
  (sandbox.execute platform.start program ((input.list? "args").getD [])
    { ExecOptions.plain with directory := some directory } world).1

theorem outcome_command
    (hinput : Input.coerce spec.inputs arguments config.strictNumbers = .ok input)
    (hprogram : Behavior.commandOf input = some program)
    (hdirectory : platform.Enters world sandbox.directory (input.text? "cwd") directory) :
    ((new spec Behavior.command config).report platform sandbox stamp arguments
        world).result.outcome =
      outcomeOf (Behavior.concludeCommand
        (record platform sandbox input program directory world)) := by
  have hconcludes := @Behavior.command_concludes _ platform (.new spec stamp.id sandbox) world
    input program directory hprogram hdirectory
  rw [@report_of_called _ (new spec Behavior.command config) platform ⟨sandbox, stamp, arguments⟩
    world _ _ _ _ hinput rfl]
  exact congrArg outcomeOf hconcludes

/-- A run whose command fails says so, and says why unless the program that ran was mute. A run that
fails though its command went well says that the directory is no text. -/
theorem failure_says_why
    (hinput : Input.coerce spec.inputs arguments config.strictNumbers = .ok input)
    (hprogram : Behavior.commandOf input = some program)
    (hdirectory : platform.Enters world sandbox.directory (input.text? "cwd") directory)
    (hfailed : ((new spec Behavior.command config).report platform sandbox stamp arguments
      world).result.isSuccess = false) :
    let call : ProgramCall :=
      ⟨program, (input.list? "args").getD [], directory, [], sandbox.config.timeoutMs⟩
    let attempt := (platform.start call world).1
    let outcome := ((new spec Behavior.command config).report platform sandbox stamp arguments
      world).result.outcome
    (sandbox.Admits program .plain ∧ attempt.Succeeds →
      ¬directory.IsText ∧ outcome = .failed "path contains invalid UTF-8 characters") ∧
    (¬(sandbox.Admits program .plain ∧ attempt.Succeeds) →
      ∃ reason, outcome = .failed ("command failed: " ++ reason) ∧
        (HasInk reason ↔ ¬(sandbox.Admits program .plain ∧ attempt.Mute))) := by
  intro call attempt outcome
  have houtcome : outcome = _ := @outcome_command _ spec config platform sandbox stamp arguments
    world input program directory hinput hprogram hdirectory
  have hsuccess : (record platform sandbox input program directory world).success = true ↔ _ :=
    sandbox.success_execute_iff platform.start program _ _ world
  have hmute : (record platform sandbox input program directory world).Mute ↔ _ :=
    sandbox.mute_execute_iff platform.start program _ _ world
  have hplace : (record platform sandbox input program directory world).directory = directory :=
    sandbox.execute_directory platform.start program _ _ world
  constructor
  · intro hwell
    have hconcludes := Behavior.outcome_of_success (hsuccess.mpr hwell)
    rw [hplace, ← houtcome] at hconcludes
    refine hconcludes.resolve_left fun hsucceeded => ?_
    obtain ⟨output, hsucceeded⟩ := hsucceeded
    simp only [RunResult.isSuccess] at hfailed
    simp only [outcome] at hsucceeded
    rw [hsucceeded] at hfailed
    cases hfailed
  · intro hwell
    have hfalse := Bool.eq_false_iff.mpr (mt hsuccess.mp hwell)
    refine ⟨Behavior.failureReason (record platform sandbox input program directory world), ?_, ?_⟩
    · rw [houtcome, Behavior.concludeCommand, hfalse]
      rfl
    · rw [Behavior.hasInk_failureReason, hmute]
      rfl

/-- The report of an errand in a directory, whose program comes to an attempt. -/
def errandOf (directory : OsPath) (attempt : Attempt) : Report Unit :=
  (new errand Behavior.command .lenient).report (.answering attempt) ⟨.standard, directory⟩
    ⟨.nil, ⟨0, 0, 0⟩⟩ ["make"] ()

/-- A program that was stopped after a blank line, one whose only octet is not text, and one that
went well in a directory whose name is not text. -/
theorem failure_says_why_errand :
    (∃ reason, HasInk reason ∧
      (errandOf "/" (.ran (some 7) 30000 .empty "\n".toUTF8 (.timedOut none))).result.outcome =
        .failed ("command failed: " ++ reason)) ∧
    (∃ reason, HasInk reason ∧
      (errandOf "/" (.ran (some 7) 1 .empty ⟨#[0xff]⟩ (.signalled none))).result.outcome =
        .failed ("command failed: " ++ reason)) ∧
    (errandOf ⟨[47, 0xff]⟩ (.ran (some 7) 1 .empty .empty (.exited 0 none))).result.outcome =
      .failed "path contains invalid UTF-8 characters" := by
  have hadmits : ∀ directory, Sandbox.Admits ⟨.standard, directory⟩ "make" .plain :=
    fun directory => .inl (by decide +kernel)
  have hwhy := fun directory attempt hfailed => @failure_says_why Unit errand .lenient
    (.answering attempt) ⟨.standard, directory⟩ ⟨.nil, ⟨0, 0, 0⟩⟩ ["make"] ()
    ⟨[("command", .string "make")]⟩ "make" directory rfl (by decide) rfl hfailed
  have hwords : ∀ attempt : Attempt, ¬attempt.Succeeds → ¬attempt.Mute →
      (errandOf "/" attempt).result.isSuccess = false →
      ∃ reason, HasInk reason ∧
        (errandOf "/" attempt).result.outcome = .failed ("command failed: " ++ reason) := by
    intro attempt hwell hmute hfailed
    obtain ⟨reason, houtcome, hink⟩ := (hwhy "/" attempt hfailed).2 fun h => hwell h.2
    exact ⟨reason, hink.mpr fun h => hmute h.2, houtcome⟩
  refine ⟨?_, ?_, ?_⟩
  · refine hwords _ ?_ ?_ rfl
    · simp [Attempt.Succeeds]
    · simp [Attempt.Mute]
  · refine hwords _ ?_ ?_ rfl
    · simp [Attempt.Succeeds]
    · exact fun h => h.2.2 (by decide +kernel)
  · exact ((hwhy ⟨[47, 0xff]⟩ (.ran (some 7) 1 .empty .empty (.exited 0 none))
      (by decide +kernel)).1 ⟨hadmits _, none, rfl⟩).2

/-- A program that exited after a blank line: there is nothing behind the colon. -/
theorem failure_says_nothing :
    let report := errandOf "/" (.ran (some 7) 1 .empty "\n".toUTF8 (.exited 3 none))
    Sandbox.Admits ⟨.standard, "/"⟩ "make" .plain ∧ report.result.isSuccess = false ∧
      report.result.message? = some "command failed: " ∧
      ¬∃ reason, HasInk reason ∧ report.result.message? = some ("command failed: " ++ reason) := by
  intro report
  have hmessage : report.result.message? = some "command failed: " := by decide +kernel
  refine ⟨.inl (by decide +kernel), rfl, hmessage, ?_⟩
  intro hsaid
  obtain ⟨reason, hink, hreason⟩ := hsaid
  rw [hmessage] at hreason
  have hsame : "command failed: ".toList = "command failed: ".toList ++ reason.toList := by
    rw [← String.toList_append, ← Option.some.inj hreason]
  exact hink.ne_empty (String.toList_eq_nil_iff.mp (List.self_eq_append_right.mp hsame))

end Runner

end Agentry
