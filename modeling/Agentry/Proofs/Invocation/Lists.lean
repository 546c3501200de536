import Agentry.Proofs.Invocation.Coercion
import Agentry.Proofs.Sandbox.Records
import Agentry.Proofs.Text
/-!
# Lists in array fields

The items of a list, joined by commas, are read back as they are, if there is one at least. So a
command can be given any such arguments. The empty list has the text of one empty item, and no text
is read as the empty list.
-/
namespace Agentry

namespace Argument

/-! ## Joining and splitting -/

/-- A text that can be one of several between commas. -/
def IsItem (item : String) : Prop :=
  ',' ∉ item.toList ∧ Text.trim item = item

instance (item : String) : Decidable (IsItem item) :=
  inferInstanceAs (Decidable (_ ∧ _))

def joined (items : List String) : String :=
  ",".intercalate items

theorem splitOn_joined {list : List String} (hne : list ≠ []) (h : ∀ item ∈ list, IsItem item) :
    Text.splitOn ',' (joined list).toList = list.map String.toList := by
  induction list with
  | nil => exact absurd rfl hne
  | cons item rest ih =>
    obtain ⟨hitem, hrest⟩ := List.forall_mem_cons.mp h
    cases rest with
    | nil =>
      rw [joined, String.intercalate_singleton]
      exact Text.splitOn_of_not_mem hitem.1
    | cons next rest =>
      have hsplit := Text.splitOn_append hitem.1 (joined (next :: rest)).toList
      have hcons : (joined (item :: next :: rest)).toList =
          item.toList ++ ',' :: (joined (next :: rest)).toList := by
        simp [joined, String.intercalate_cons_cons]
      rw [hcons, hsplit, ih (by simp) hrest]
      rfl

theorem items_joined {list : List String} (hne : list ≠ []) (h : ∀ item ∈ list, IsItem item) :
    items (joined list) = list := by
  rw [items, splitOn_joined hne h, List.map_map]
  exact (List.map_congr_left fun item hitem => (h item hitem).2).trans (List.map_id' list)

theorem items_ne_nil (text : String) : items text ≠ [] := by
  simp [items, Text.splitOn_ne_nil]

theorem value_array_ne_nil (strict : Bool) (name text : String) :
    value strict name .array text ≠ .ok (.strings []) := by
  intro h
  have hstrings : Json.Value.array ((items text).map .string) = .array [] := Except.ok.inj h
  exact items_ne_nil text (List.map_eq_nil_iff.mp (Json.Value.array.inj hstrings))

end Argument

namespace Input

theorem filterMap_textItem (list : List String) :
    (list.map Json.Value.string).filterMap textItem = list := by
  induction list with
  | nil => rfl
  | cons item rest ih => simp [textItem, ih]

theorem list?_of_strings {input : Input} {name : String} {list : List String}
    (h : input.get? name = some (.strings list)) : input.list? name = some list := by
  rw [list?, h]
  exact congrArg some (filterMap_textItem list)

end Input

/-! ## Arguments of a command -/

variable {σ : Type}

/-- The directory that a path leads to; no path and the empty one lead nowhere else. -/
def Platform.Enters (platform : Platform σ) (world : σ) (base : OsPath) :
    Option String → OsPath → Prop
  | none, directory => directory = base
  | some path, directory =>
    if path = "" then directory = base
    else platform.changeDirectory world base (.ofText path) = .ok directory

namespace Behavior

theorem moved_of_enters {platform : Platform σ} {context : Context} {world : σ} {input : Input}
    {directory : OsPath}
    (h : platform.Enters world context.directory (input.text? "cwd") directory) :
    moved platform context world (directoryOf input) = .ok { context with directory } := by
  rw [directoryOf]
  cases hcwd : input.text? "cwd" with
  | none =>
    rw [hcwd] at h
    obtain rfl : directory = context.directory := h
    rfl
  | some path =>
    rw [hcwd, Platform.Enters] at h
    by_cases hempty : path = ""
    · rw [if_pos hempty] at h
      subst h
      simp [Option.filter, hempty, moved]
    · rw [if_neg hempty] at h
      simp [Option.filter, hempty, moved, Context.changeDirectory, h, Except.map]

/-- What a command is started with. -/
theorem command_starts {platform : Platform σ} {context : Context} {world : σ} {input : Input}
    {program : String} {directory : OsPath} (before : List ProgramCall)
    (hprogram : commandOf input = some program)
    (hadmits : context.sandbox.Admits program .plain)
    (hdirectory : platform.Enters world context.directory (input.text? "cwd") directory) :
    (command platform.recorded context input (world, before)).2.2.2 =
      before ++ [⟨program, (input.list? "args").getD [], directory, [],
        context.sandbox.config.timeoutMs⟩] := by
  have hmoved : moved platform.recorded context (world, before) (directoryOf input) =
      .ok { context with directory } := moved_of_enters hdirectory
  have hrefused : context.sandbox.refusedFor program
      { ExecOptions.plain with directory := some directory } = none :=
    Sandbox.refusedFor_eq_none_iff.mpr hadmits
  simp only [command, hprogram, hmoved, Context.run, ExecOptions.plain, Option.getD_none]
    at hrefused ⊢
  rw [Sandbox.execute_admitted hrefused]
  rfl

end Behavior

/-- The fields of an agent that runs commands, in the order of its arguments. -/
def commandFields : Schema :=
  ⟨[("command", .mandatory .string), ("args", .optional .array), ("cwd", .optional .string)]⟩

/-- The programs that a run of such an agent asks for. -/
def Runner.calls (spec : AgentSpec) (config : RunConfig) (platform : Platform σ)
    (sandbox : Sandbox) (stamp : RunStamp) (arguments : List String) (world : σ) :
    List ProgramCall :=
  ((new spec Behavior.command config).report platform.recorded sandbox stamp arguments
    (world, [])).world.2

theorem Runner.calls_of_coerce {spec : AgentSpec} {config : RunConfig} {platform : Platform σ}
    {sandbox : Sandbox} {arguments : List String} {world : σ} {record : Input}
    {program : String} {directory : OsPath} (stamp : RunStamp)
    (hcoerce : Input.coerce spec.inputs arguments config.strictNumbers = .ok record)
    (hprogram : Behavior.commandOf record = some program)
    (hadmits : sandbox.Admits program .plain)
    (hdirectory : platform.Enters world sandbox.directory (record.text? "cwd") directory) :
    calls spec config platform sandbox stamp arguments world =
      [⟨program, (record.list? "args").getD [], directory, [], sandbox.config.timeoutMs⟩] := by
  have hstarts := @Behavior.command_starts _ platform (.new spec stamp.id sandbox) world record
    program directory [] hprogram hadmits hdirectory
  rw [calls, @report_of_called _ (new spec Behavior.command config) platform.recorded
    ⟨sandbox, stamp, arguments⟩ (world, []) _ _ _ _ hcoerce rfl]
  exact hstarts

theorem Input.commandOf_of_field {record : Input} {program : String}
    (h : record.get? "command" = some (.string program))
    (hprogram : Text.isAllBlank program = false) : Behavior.commandOf record = some program := by
  simp [Behavior.commandOf, text?, h, Option.filter, hprogram]

theorem Input.coerce_commandFields (strict : Bool) (program text : String) (cwd : Option String) :
    coerce commandFields (program :: text :: cwd.toList) strict =
      .ok ⟨("command", .string program) :: ("args", .strings (Argument.items text)) ::
        cwd.toList.map fun path => ("cwd", .string path)⟩ := by
  cases cwd <;> rfl

/-- The items of the array field are what the command is given. -/
theorem Runner.calls_of_array {spec : AgentSpec} {config : RunConfig} {platform : Platform σ}
    {sandbox : Sandbox} {world : σ} {program : String} {directory : OsPath} {cwd : Option String}
    (stamp : RunStamp) (text : String) (hspec : spec.inputs = commandFields)
    (hprogram : Text.isAllBlank program = false) (hadmits : sandbox.Admits program .plain)
    (hdirectory : platform.Enters world sandbox.directory cwd directory) :
    calls spec config platform sandbox stamp (program :: text :: cwd.toList) world =
      [⟨program, Argument.items text, directory, [], sandbox.config.timeoutMs⟩] := by
  have hcoerce := Input.coerce_commandFields config.strictNumbers program text cwd
  rw [← hspec] at hcoerce
  have hcwd : Input.text? ⟨("command", .string program) ::
      ("args", .strings (Argument.items text)) ::
        cwd.toList.map fun path => ("cwd", .string path)⟩ "cwd" = cwd := by
    cases cwd <;> rfl
  rw [← hcwd] at hdirectory
  rw [calls_of_coerce stamp hcoerce (Input.commandOf_of_field rfl hprogram) hadmits hdirectory,
    Input.list?_of_strings rfl, Option.getD_some]

theorem Runner.arguments_of_calls {spec : AgentSpec} {config : RunConfig} {platform : Platform σ}
    {sandbox : Sandbox} {stamp : RunStamp} {arguments : List String} {world : σ}
    {call : ProgramCall} (h : call ∈ calls spec config platform sandbox stamp arguments world) :
    ∃ record, Input.coerce spec.inputs arguments config.strictNumbers = .ok record ∧
      call.arguments = (record.list? "args").getD [] := by
  let request : RunRequest := ⟨sandbox, stamp, arguments⟩
  cases hcoerce : Input.coerce spec.inputs arguments config.strictNumbers with
  | error cause =>
    rw [calls, @report_of_refused _ (new spec Behavior.command config) _ request _ _ hcoerce] at h
    cases h
  | ok record =>
    obtain ⟨conclusion, events, after, calls, -, hrecorded, harguments, -⟩ :=
      Behavior.command_calls platform (.new spec stamp.id sandbox) record world []
    rw [Runner.calls, @report_of_called _ (new spec Behavior.command config) _ request _ _ _ _ _
      hcoerce hrecorded] at h
    exact ⟨record, rfl, harguments call h⟩

/-- A command is called without arguments exactly if nothing is given behind it. -/
theorem Runner.calls_without_arguments {spec : AgentSpec} {config : RunConfig}
    {platform : Platform σ} {sandbox : Sandbox} {stamp : RunStamp} {arguments : List String}
    {world : σ} {call : ProgramCall} (hspec : spec.inputs = commandFields)
    (h : call ∈ calls spec config platform sandbox stamp arguments world) :
    call.arguments = [] ↔ ∃ program, arguments = [program] := by
  obtain ⟨record, hcoerce, hcall⟩ := arguments_of_calls h
  rw [hspec] at hcoerce
  have hnames : commandFields.names.Nodup := by decide
  have hfield : commandFields.fields[1]? = some ("args", .optional .array) := rfl
  have hargs := Input.get?_of_coerce hnames hcoerce hfield
  rw [hcall]
  match arguments with
  | [] => cases hcoerce
  | [program] => exact iff_of_true (by rw [Input.list?, hargs]; rfl) ⟨program, rfl⟩
  | program :: text :: rest =>
    rw [Input.list?_of_strings hargs]
    exact iff_of_false (Argument.items_ne_nil text) (by simp)

/-- A list that is not empty is read back from an array field as it is, and handed to a command,
with a directory after it or not. An array field never holds the empty list: a command without
arguments is one for which the field is left out. -/
theorem Input.list_argument {list : List String} (hne : list ≠ [])
    (hlist : ∀ item ∈ list, Argument.IsItem item) :
    (∀ strict name, Argument.value strict name .array (Argument.joined list) =
      .ok (.strings list)) ∧
    (∀ (schema : Schema) (arguments : List String) (strict : Bool) (i : Nat) (name : String)
      (field : FieldSpec), schema.names.Nodup → schema.fields[i]? = some (name, field) →
      field.type = .array → arguments[i]? = some (Argument.joined list) →
      (∀ e, ¬ Refuses strict schema.fields arguments i e) ∧
      ∀ record, coerce schema arguments strict = .ok record → record.list? name = some list) ∧
    (∀ (σ : Type) (platform : Platform σ) (sandbox : Sandbox) (spec : AgentSpec)
      (config : RunConfig) (stamp : RunStamp) (world : σ) (program : String) (directory : OsPath)
      (cwd : Option String), spec.inputs = commandFields → Text.isAllBlank program = false →
      sandbox.Admits program .plain → platform.Enters world sandbox.directory cwd directory →
      Runner.calls spec config platform sandbox stamp
          (program :: Argument.joined list :: cwd.toList) world =
        [⟨program, list, directory, [], sandbox.config.timeoutMs⟩]) ∧
    (∀ strict name text, Argument.value strict name .array text ≠ .ok (.strings [])) ∧
    (∀ (σ : Type) (platform : Platform σ) (sandbox : Sandbox) (spec : AgentSpec)
      (config : RunConfig) (stamp : RunStamp) (world : σ) (arguments : List String),
      spec.inputs = commandFields →
      ∀ call ∈ Runner.calls spec config platform sandbox stamp arguments world,
        call.arguments = [] ↔ ∃ program, arguments = [program]) ∧
    ∀ (σ : Type) (platform : Platform σ) (sandbox : Sandbox) (spec : AgentSpec)
      (config : RunConfig) (stamp : RunStamp) (world : σ) (program : String),
      spec.inputs = commandFields → Text.isAllBlank program = false →
      sandbox.Admits program .plain →
      Runner.calls spec config platform sandbox stamp [program] world =
        [⟨program, [], sandbox.directory, [], sandbox.config.timeoutMs⟩] := by
  have hitems := Argument.items_joined hne hlist
  refine ⟨?_, ?_, ?_, Argument.value_array_ne_nil, ?_, ?_⟩
  · intro strict name
    simp only [Argument.value, hitems]
  · intro schema arguments strict i name field hnames hfield htype hargument
    constructor
    · intro e
      refine not_refuses_of_argument hfield hargument ?_
      rintro ⟨-, hnumber, -⟩
      rw [htype] at hnumber
      cases hnumber
    · intro record hok
      refine list?_of_strings ?_
      rw [get?_of_coerce hnames hok hfield, hargument, htype]
      simp only [Option.map_some, Argument.meaning, hitems]
  · intro σ platform sandbox spec config stamp world program directory cwd hspec hprogram hadmits
      hdirectory
    rw [Runner.calls_of_array stamp _ hspec hprogram hadmits hdirectory, hitems]
  · intro σ platform sandbox spec config stamp world arguments hspec call hcall
    exact Runner.calls_without_arguments hspec hcall
  · intro σ platform sandbox spec config stamp world program hspec hprogram hadmits
    have hcoerce : coerce spec.inputs [program] config.strictNumbers =
        .ok ⟨[("command", .string program)]⟩ := by
      rw [hspec]
      rfl
    exact Runner.calls_of_coerce stamp hcoerce (commandOf_of_field rfl hprogram) hadmits rfl

/-- An empty item among others, and a directory after the list. -/
theorem Input.list_argument_errand :
    Argument.value true "args" .array "-n,,a b" = .ok (.strings ["-n", "", "a b"]) ∧
      Runner.calls { errand with inputs := commandFields } .lenient (Platform.obliging (σ := Unit))
          ⟨.standard, "/"⟩ ⟨.nil, ⟨0, 0, 0⟩⟩ ["echo", "-n,,a b", "sub"] () =
        [⟨"echo", ["-n", "", "a b"], "sub", [], 30000⟩] ∧
      Runner.calls { errand with inputs := commandFields } .lenient (Platform.obliging (σ := Unit))
          ⟨.standard, "/"⟩ ⟨.nil, ⟨0, 0, 0⟩⟩ ["echo"] () =
        [⟨"echo", [], "/", [], 30000⟩] := by
  have hadmits : Sandbox.Admits ⟨.standard, "/"⟩ "echo" .plain := .inl (by decide +kernel)
  have hjoined : Argument.joined ["-n", "", "a b"] = "-n,,a b" := by decide
  obtain ⟨hvalue, -, hgiven, -, -, hnone⟩ :=
    @list_argument ["-n", "", "a b"] (by simp) (by decide)
  rw [hjoined] at hvalue hgiven
  exact ⟨hvalue true "args", hgiven _ _ _ _ _ _ _ _ _ (some "sub") rfl (by decide) hadmits rfl,
    hnone _ _ _ _ _ _ _ _ rfl (by decide) hadmits⟩

/-- No items and one empty item have the same text, and it is read as one empty item. -/
theorem Input.list_argument_nil :
    Argument.joined [] = "" ∧ Argument.joined [""] = "" ∧ Argument.IsItem "" ∧
      Argument.value true "args" .array "" = .ok (.strings [""]) ∧
      Argument.value false "args" .array "" = .ok (.strings [""]) ∧
      Input.list? ⟨[("args", .strings [""])]⟩ "args" ≠ some [] := by
  refine ⟨by decide, by decide, by decide, rfl, rfl, ?_⟩
  rw [list?_of_strings rfl]
  simp

end Agentry
