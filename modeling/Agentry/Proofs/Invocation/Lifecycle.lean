import Agentry.Invocation.Run
import Agentry.Proofs.Text.Quoted
/-!
# The course of a run

A run goes one of four ways: its arguments are refused, or its behavior returns, fails or panics.
The way fixes the states the run goes through, its outcome with the words of a failure, and the
calls of the behavior. Runs of one agent follow each other, and none of them depends on the state
that an earlier one left, since a run forgets it at its start.
-/
namespace Agentry

/-! ## The words of a failure -/

/-- What is said of arguments that are refused. -/
inductive CoercionError.Says : CoercionError → String → Prop
  | missing (field : String) : Says (.missing field) ("missing required parameter: " ++ field)
  | invalidNumber {field text shown : String} (h : Text.Quotes text shown) :
    Says (.invalidNumber field text) ("invalid number for '" ++ field ++ "': " ++ shown)

/-- What is said of a behavior that fails. -/
inductive BehaviorError.Says : BehaviorError → String → Prop
  | message (text : String) : Says (.message text) text
  | command (text : String) : Says (.command text) ("command failed: " ++ text)
  | other (text : String) : Says (.other text) text

/-- What is said of a behavior that panics. -/
inductive PanicPayload.Says : PanicPayload → String → Prop
  | borrowed (text : String) : Says (.borrowed text) ("agent panicked: " ++ text)
  | owned (text : String) : Says (.owned text) ("agent panicked: " ++ text)
  | other : Says .other "agent panicked: unknown panic payload"

theorem CoercionError.says_message (cause : CoercionError) : cause.Says cause.message := by
  cases cause with
  | missing field => exact .missing field
  | invalidNumber field text => exact .invalidNumber (Text.quotes_quoted text)

theorem BehaviorError.says_text (cause : BehaviorError) : cause.Says cause.text := by
  cases cause with
  | message text => exact .message text
  | command text => exact .command text
  | other text => exact .other text

theorem PanicPayload.says_panicText (payload : PanicPayload) :
    payload.Says ("agent panicked: " ++ payload.message) := by
  cases payload with
  | borrowed text => exact .borrowed text
  | owned text => exact .owned text
  | other => exact .other

/-! ## Events -/

/-- A behavior on a given platform that also writes down the input of each of its calls. -/
def Behavior.recorded (behavior : Behavior σ) (platform : Platform σ) : Behavior (σ × List Input) :=
  fun _ context input (world, inputs) =>
    let (conclusion, commands, after) := behavior platform context input world
    (conclusion, commands, after, inputs ++ [input])

namespace RunEvent

def IsCalled (event : RunEvent) (name : String) : Prop :=
  ("event", Json.Value.string name) ∈ event.report.2

/-- An event that marks neither end of a run. -/
def IsInner (event : RunEvent) : Prop :=
  ¬ event.IsCalled "invocation.started" ∧ ¬ event.IsCalled "invocation.finished"

def move? : RunEvent → Option (String × RunState × RunState)
  | .moved agent before after => some (agent, before, after)
  | _ => none

theorem isCalled_started_iff {event : RunEvent} :
    event.IsCalled "invocation.started" ↔ ∃ agent arguments, event = .started agent arguments := by
  cases event with
  | command event => cases event <;> simp [IsCalled, report, CommandEvent.report]
  | _ => simp [IsCalled, report]

theorem isCalled_finished_iff {event : RunEvent} :
    event.IsCalled "invocation.finished" ↔ ∃ agent success, event = .finished agent success := by
  cases event with
  | command event => cases event <;> simp [IsCalled, report, CommandEvent.report]
  | _ => simp [IsCalled, report]

@[simp] theorem isInner_iff {event : RunEvent} :
    event.IsInner ↔ (¬ ∃ agent arguments, event = .started agent arguments) ∧
      ¬ ∃ agent success, event = .finished agent success := by
  rw [IsInner, isCalled_started_iff, isCalled_finished_iff]

end RunEvent

def moves (events : List RunEvent) : List (String × RunState × RunState) :=
  events.filterMap RunEvent.move?

/-- A call of a behavior: what it was given, and what came of it. -/
structure BehaviorCall (σ : Type) where
  input : Input
  conclusion : Conclusion
  commands : List CommandEvent
  after : σ

/-- The four ways of a run: the behavior's call or why there is none, the inputs of all the calls,
the states and the outcome. -/
inductive Course : Except CoercionError (BehaviorCall σ) → List Input → List RunState →
    RunOutcome → Prop
  | refused {cause : CoercionError} {text : String} (h : cause.Says text) :
    Course (.error cause) [] [.created, .failed] (.failed text)
  | returned {call : BehaviorCall σ} {output : Json.Value}
    (h : call.conclusion = .returned output) :
    Course (.ok call) [call.input] [.created, .inputCoerced, .executing, .succeeded]
      (.succeeded output)
  | failed {call : BehaviorCall σ} {cause : BehaviorError} {text : String}
    (h : call.conclusion = .failed cause) (hwords : cause.Says text) :
    Course (.ok call) [call.input] [.created, .inputCoerced, .executing, .failed] (.failed text)
  | panicked {call : BehaviorCall σ} {payload : PanicPayload} {text : String}
    (h : call.conclusion = .panicked payload) (hwords : payload.Says text) :
    Course (.ok call) [call.input] [.created, .inputCoerced, .executing, .failed] (.failed text)

/-! ## Runs -/

structure RunRequest where
  sandbox : Sandbox
  stamp : RunStamp
  arguments : List String

namespace Runner

/-- A run that took place, from some world, and the agent after it. -/
structure Record (σ : Type) where
  request : RunRequest
  world : σ
  report : Report σ
  after : Runner σ

/-- Runs of one agent in turn, each in the world that the one before it left. -/
def runAll (runner : Runner σ) (platform : Platform σ) (world : σ) :
    List RunRequest → List (Record σ)
  | [] => []
  | request :: rest =>
    let (report, after) :=
      runner.run platform request.sandbox request.stamp request.arguments world
    ⟨request, world, report, after⟩ :: after.runAll platform report.world rest

def recorded (runner : Runner σ) (platform : Platform σ) : Runner (σ × List Input) :=
  ⟨runner.spec, runner.behavior.recorded platform, runner.config, runner.state⟩

/-- The call of the behavior in a run, unless the arguments are refused. -/
def attempt (runner : Runner σ) (platform : Platform σ) (request : RunRequest) (world : σ) :
    Except CoercionError (BehaviorCall σ) :=
  let context := Context.new runner.spec request.stamp.id request.sandbox
  (Input.coerce runner.spec.inputs request.arguments runner.config.strictNumbers).map fun input =>
    let (conclusion, commands, after) := runner.behavior platform context input world
    ⟨input, conclusion, commands, after⟩

/-- What a run says about its states, around what `inside` says. -/
def told (agent : String) (arguments : List String) (inside : List RunEvent)
    (last : RunState) (result : RunResult) : List RunEvent :=
  .started agent arguments.length :: inside ++
    [.moved agent last (finalState result), .finished agent result.isSuccess]

def eventsInside (spec : AgentSpec) (arguments : List String) (call : BehaviorCall σ) :
    List RunEvent :=
  surplusEvents spec.inputs arguments ++
    .moved spec.name .created .inputCoerced :: .moved spec.name .inputCoerced .executing ::
    call.commands.map .command ++ panicEvents spec.name call.conclusion

/-- What a run says, given the call of its behavior. -/
def reportOf (spec : AgentSpec) (request : RunRequest) (world : σ) :
    Except CoercionError (BehaviorCall σ) → Report σ
  | .error cause =>
    let result : RunResult := ⟨spec.name, request.stamp, .failed cause.message⟩
    ⟨result, told spec.name request.arguments [] .created result, world⟩
  | .ok call =>
    let result : RunResult := ⟨spec.name, request.stamp, outcomeOf call.conclusion⟩
    ⟨result,
      told spec.name request.arguments (eventsInside spec request.arguments call) .executing result,
      call.after⟩

/-- A run as it should be, whatever the behavior does and whatever ran before. -/
structure Lawful (runner : Runner σ) (platform : Platform σ) (record : Record σ) : Prop where
  agent : record.report.result.agent = runner.spec.name
  stamp : record.report.result.stamp = record.request.stamp
  state : record.after.state = if record.report.result.isSuccess then .succeeded else .failed
  -- The calls are counted by the recorded behavior; the run is otherwise the same with it.
  course : ∃ inputs path,
    Course (runner.attempt platform record.request record.world) inputs path
      record.report.result.outcome ∧
    moves record.report.events = (path.zip path.tail).map (runner.spec.name, ·) ∧
    ∀ observed before,
      (runner.recorded platform).report observed record.request.sandbox record.request.stamp
        record.request.arguments (record.world, before) =
      ⟨record.report.result, record.report.events, record.report.world, before ++ inputs⟩
  bracketed : ∃ inside,
    record.report.events =
      .started runner.spec.name record.request.arguments.length :: inside ++
        [.finished runner.spec.name record.report.result.isSuccess] ∧
    ∀ event ∈ inside, event.IsInner
  fresh : (record.report, record.after) =
    (Runner.new runner.spec runner.behavior runner.config).run platform record.request.sandbox
      record.request.stamp record.request.arguments record.world

variable {agent : String} {arguments : List String} {inside : List RunEvent} {last : RunState}
  {result : RunResult} {event : RunEvent} {spec : AgentSpec} {call : BehaviorCall σ}
  {runner : Runner σ} {platform : Platform σ} {request : RunRequest} {world : σ}

theorem moves_append (events rest : List RunEvent) :
    moves (events ++ rest) = moves events ++ moves rest :=
  List.filterMap_append

theorem moves_surplusEvents (schema : Schema) : moves (surplusEvents schema arguments) = [] := by
  unfold surplusEvents
  split <;> rfl

theorem moves_command (events : List CommandEvent) : moves (events.map .command) = [] := by
  simp [moves, RunEvent.move?, List.filterMap_map]

theorem moves_panicEvents (conclusion : Conclusion) :
    moves (panicEvents agent conclusion) = [] := by
  cases conclusion <;> rfl

theorem moves_eventsInside :
    moves (eventsInside spec arguments call) =
      [(spec.name, .created, .inputCoerced), (spec.name, .inputCoerced, .executing)] := by
  rw [eventsInside, moves_append, moves_append, moves_surplusEvents, moves_panicEvents]
  exact congrArg (_ :: _ :: · ++ []) (moves_command call.commands)

theorem moves_told :
    moves (told agent arguments inside last result) =
      moves inside ++ [(agent, last, finalState result)] := by
  rw [told, moves_append]
  rfl

theorem isInner_of_mem_surplusEvents {schema : Schema}
    (h : event ∈ surplusEvents schema arguments) : event.IsInner := by
  unfold surplusEvents at h
  split at h
  · obtain rfl := List.mem_singleton.mp h
    simp
  · cases h

theorem isInner_of_mem_panicEvents {conclusion : Conclusion}
    (h : event ∈ panicEvents agent conclusion) : event.IsInner := by
  cases conclusion with
  | panicked payload =>
    obtain rfl := List.mem_singleton.mp h
    simp
  | returned output => cases h
  | failed cause => cases h

theorem isInner_of_mem_eventsInside (h : event ∈ eventsInside spec arguments call) :
    event.IsInner := by
  simp only [eventsInside, List.mem_append, List.mem_cons, List.mem_map] at h
  rcases h with (h | rfl | rfl | ⟨command, -, rfl⟩) | h
  · exact isInner_of_mem_surplusEvents h
  · simp
  · simp
  · simp
  · exact isInner_of_mem_panicEvents h

theorem told_bracketed (hinside : ∀ event ∈ inside, event.IsInner) :
    ∃ between, told agent arguments inside last result =
        .started agent arguments.length :: between ++ [.finished agent result.isSuccess] ∧
      ∀ event ∈ between, event.IsInner := by
  refine ⟨inside ++ [.moved agent last (finalState result)], by simp [told], ?_⟩
  intro event hevent
  rcases List.mem_append.mp hevent with h | h
  · exact hinside event h
  · obtain rfl := List.mem_singleton.mp h
    simp

/-- The states that a run tells start at the first one, whichever the runner was left in. -/
theorem run_eq :
    runner.run platform request.sandbox request.stamp request.arguments world =
      let report := reportOf runner.spec request world (runner.attempt platform request world)
      (report, { runner with state := finalState report.result }) := by
  simp only [run, attempt]
  cases Input.coerce runner.spec.inputs request.arguments runner.config.strictNumbers with
  | error cause => rfl
  | ok input => simp [reportOf, told, eventsInside, finish, transition, Except.map]

theorem report_eq :
    runner.report platform request.sandbox request.stamp request.arguments world =
      reportOf runner.spec request world (runner.attempt platform request world) :=
  congrArg Prod.fst run_eq

theorem report_of_refused {cause : CoercionError}
    (h : Input.coerce runner.spec.inputs request.arguments runner.config.strictNumbers =
      .error cause) :
    runner.report platform request.sandbox request.stamp request.arguments world =
      reportOf runner.spec request world (.error cause) := by
  rw [report_eq, attempt, h]
  rfl

theorem report_of_called {input : Input} {conclusion : Conclusion} {commands : List CommandEvent}
    {after : σ}
    (hinput : Input.coerce runner.spec.inputs request.arguments runner.config.strictNumbers =
      .ok input)
    (hcall : runner.behavior platform (.new runner.spec request.stamp.id request.sandbox) input
      world = (conclusion, commands, after)) :
    runner.report platform request.sandbox request.stamp request.arguments world =
      reportOf runner.spec request world (.ok ⟨input, conclusion, commands, after⟩) := by
  rw [report_eq, attempt, hinput]
  simp only [Except.map, hcall]

theorem attempt_recorded {observed : Platform (σ × List Input)} {before : List Input} :
    (runner.recorded platform).attempt observed request (world, before) =
      (runner.attempt platform request world).map fun call =>
        ⟨call.input, call.conclusion, call.commands, call.after, before ++ [call.input]⟩ := by
  simp only [attempt, recorded]
  cases Input.coerce runner.spec.inputs request.arguments runner.config.strictNumbers <;> rfl

theorem course_of_call (call : BehaviorCall σ) (agent : String) (stamp : RunStamp) :
    Course (.ok call) [call.input]
      [.created, .inputCoerced, .executing, finalState ⟨agent, stamp, outcomeOf call.conclusion⟩]
      (outcomeOf call.conclusion) := by
  cases hconclusion : call.conclusion with
  | returned output => exact .returned hconclusion
  | failed cause => exact .failed hconclusion cause.says_text
  | panicked payload => exact .panicked hconclusion payload.says_panicText

theorem report_course :
    let report := runner.report platform request.sandbox request.stamp request.arguments world
    ∃ inputs path,
      Course (runner.attempt platform request world) inputs path report.result.outcome ∧
      moves report.events = (path.zip path.tail).map (runner.spec.name, ·) ∧
      ∀ observed before,
        (runner.recorded platform).report observed request.sandbox request.stamp request.arguments
          (world, before) =
        ⟨report.result, report.events, report.world, before ++ inputs⟩ := by
  simp only [report_eq, attempt_recorded]
  cases runner.attempt platform request world with
  | error cause =>
    refine ⟨_, _, .refused cause.says_message, ?_, ?_⟩
    · rw [reportOf, moves_told]
      rfl
    · intro observed before
      simp [reportOf, Except.map, recorded]
  | ok call =>
    refine ⟨_, _, course_of_call call runner.spec.name request.stamp, ?_, ?_⟩
    · rw [reportOf, moves_told, moves_eventsInside]
      rfl
    · intro observed before
      rfl

theorem report_bracketed :
    let report := runner.report platform request.sandbox request.stamp request.arguments world
    ∃ inside,
      report.events = .started runner.spec.name request.arguments.length :: inside ++
        [.finished runner.spec.name report.result.isSuccess] ∧
      ∀ event ∈ inside, event.IsInner := by
  simp only [report_eq]
  cases runner.attempt platform request world with
  | error cause => exact told_bracketed (by simp)
  | ok call => exact told_bracketed fun _ => isInner_of_mem_eventsInside

theorem report_agent_stamp :
    let report := runner.report platform request.sandbox request.stamp request.arguments world
    report.result.agent = runner.spec.name ∧ report.result.stamp = request.stamp := by
  simp only [report_eq]
  cases runner.attempt platform request world <;> exact ⟨rfl, rfl⟩

theorem run_lawful (runner : Runner σ) (platform : Platform σ) (request : RunRequest) (world : σ) :
    let done := runner.run platform request.sandbox request.stamp request.arguments world
    runner.Lawful platform ⟨request, world, done.1, done.2⟩ where
  agent := report_agent_stamp.1
  stamp := report_agent_stamp.2
  state := by simp only [run_eq, finalState]
  course := report_course
  bracketed := report_bracketed
  fresh := rfl

theorem Lawful.of_state {state : RunState} {record : Record σ}
    (h : Lawful { runner with state := state } platform record) : runner.Lawful platform record :=
  ⟨h.agent, h.stamp, h.state, h.course, h.bracketed, h.fresh⟩

theorem runAll_lawful (runner : Runner σ) (platform : Platform σ) (requests : List RunRequest)
    (world : σ) :
    (runner.runAll platform world requests).map (·.request) = requests ∧
      ∀ record ∈ runner.runAll platform world requests, runner.Lawful platform record := by
  -- No law mentions the state, so what the rest keeps of the agent it keeps of this one.
  induction requests generalizing runner world with
  | nil => simp [runAll]
  | cons request rest ih =>
    obtain ⟨report, after, hrun⟩ : ∃ report after,
        runner.run platform request.sandbox request.stamp request.arguments world =
          (report, after) := ⟨_, _, rfl⟩
    have hlawful := run_lawful runner platform request world
    obtain rfl : after = { runner with state := _ } := (Prod.mk.inj (hrun.symm.trans run_eq)).2
    obtain ⟨hrequests, hrest⟩ := ih _ report.world
    simp only [runAll, hrun] at hlawful ⊢
    refine ⟨congrArg (request :: ·) hrequests, ?_⟩
    intro record hrecord
    rcases List.mem_cons.mp hrecord with rfl | hrecord
    · exact hlawful
    · exact (hrest record hrecord).of_state

/-- An agent that panics on one of its inputs, in a world that counts its calls. -/
def jumpy : Runner Nat :=
  .new ((AgentSpec.new "Jumpy" "panics at a word" "1").withInput "word" (.mandatory .string))
    (fun _ _ input world =>
      let conclusion : Conclusion := match input.text? "word" with
        | some "boo" => .panicked (.borrowed "too loud")
        | some "???" => .panicked .other
        | some "no" => .failed (.command "refused")
        | _ => .returned input.toJson
      (conclusion, [], world + 1))
    .lenient

def jumpyRequests : List RunRequest :=
  [["go"], ["boo"], [], ["???"], ["no"], ["go"]].map fun arguments =>
    ⟨⟨.standard, "/"⟩, ⟨.nil, ⟨0, 0, 0⟩⟩, arguments⟩

/-- Runs that go well come before and after others that panic, fail and are refused. -/
theorem runAll_lawful_jumpy :
    let platform : Platform Nat :=
      ⟨fun _ world => (.notStarted .notFound, world), fun _ _ path => .ok path⟩
    let records := jumpy.runAll platform 0 jumpyRequests
    records.map (·.request) = jumpyRequests ∧
      (∀ record ∈ records, jumpy.Lawful platform record) ∧
      records.map (fun record =>
        (record.report.result.message?, record.after.state, record.report.world)) =
        [(none, .succeeded, 1), (some "agent panicked: too loud", .failed, 2),
          (some "missing required parameter: word", .failed, 2),
          (some "agent panicked: unknown panic payload", .failed, 3),
          (some "command failed: refused", .failed, 4), (none, .succeeded, 5)] := by
  intro platform records
  obtain ⟨hrequests, hlawful⟩ := runAll_lawful jumpy platform jumpyRequests 0
  exact ⟨hrequests, hlawful, by decide +kernel⟩

end Runner
end Agentry
