import Agentry.Proofs.Slug
import Agentry.Registry
import Mathlib.Data.List.Sort
import Mathlib.Data.String.Basic
/-!
# Registrations in turn

Registrations follow each other on one registry, and each succeeds or changes nothing. What is bound
in the end are the registrations that succeeded, in their order. So an id keeps the agent that was
bound to it first, and every text with its slug finds that agent as long as only slugs are bound.
-/
namespace Agentry

/-- What a registry can be asked to bind. -/
inductive Registration (σ : Type) where
  | named (agent : RegisteredAgent σ)
  | under (id : String) (agent : RegisteredAgent σ)
  | loaded (id : String) (spec : AgentSpec)

namespace Registration

def id : Registration σ → String
  | .named agent => slugify agent.spec.name
  | .under id _ => id
  | .loaded id _ => id

def agent : Registration σ → RegisteredAgent σ
  | .named agent => agent
  | .under _ agent => agent
  | .loaded _ spec => ⟨spec, Behavior.ofSpec spec⟩

end Registration

namespace Registry

def enrol (registry : Registry σ) : Registration σ → Except AgentError (Registry σ)
  | .named agent => registry.register agent
  | .under id agent => registry.registerAs id agent
  | .loaded id spec => registry.registerSpec id spec

/-- Registrations with their answers. -/
abbrev Log (σ : Type) := List (Registration σ × Except AgentError Unit)

/-- Registrations in turn. One that fails leaves the registry as it was. -/
def enrolAll (registry : Registry σ) : List (Registration σ) → Log σ × Registry σ
  | [] => ([], registry)
  | next :: rest =>
    match registry.enrol next with
    | .error cause =>
      let (log, last) := registry.enrolAll rest
      ((next, .error cause) :: log, last)
    | .ok after =>
      let (log, last) := after.enrolAll rest
      ((next, .ok ()) :: log, last)

/-- The registrations that succeeded, each with the id it bound. -/
def bound (log : Log σ) : List (String × RegisteredAgent σ) :=
  (log.filter (·.2.isOk)).map fun entry => (entry.1.id, entry.1.agent)

/-- No id is empty or bound twice. -/
structure Lawful (registry : Registry σ) : Prop where
  nodup : (registry.agents.map (·.1)).Nodup
  nonempty : "" ∉ registry.agents.map (·.1)

variable {registry after : Registry σ} {next : Registration σ} {id : String}
  {agent : RegisteredAgent σ} {cause : AgentError}

/-! ## What is bound -/

theorem get?_isSome_iff : (registry.get? id).isSome = true ↔ id ∈ registry.agents.map (·.1) := by
  simp only [get?, Option.isSome_map, List.find?_isSome, beq_iff_eq, List.mem_map]

theorem mem_ids_iff : id ∈ registry.ids ↔ (registry.get? id).isSome = true := by
  rw [get?_isSome_iff, ids, List.mem_mergeSort]

theorem Lawful.ids_increasing (h : registry.Lawful) : registry.ids.Pairwise (· < ·) := by
  have hsorted : registry.ids.Pairwise fun a b => decide (a ≤ b) = true :=
    List.pairwise_mergeSort (by simpa using fun a b c hab hbc => le_trans hab hbc)
      (by simpa using fun a b => le_total a b) _
  have hnodup : registry.ids.Nodup := (List.mergeSort_perm _ _).nodup_iff.mpr h.nodup
  refine (hsorted.and hnodup).imp ?_
  rintro a b ⟨hle, hne⟩
  exact lt_of_le_of_ne (of_decide_eq_true hle) hne

/-! ## One registration -/

theorem enrol_eq (registry : Registry σ) (next : Registration σ) :
    registry.enrol next = registry.registerAs next.id next.agent := by
  cases next <;> rfl

/-- What a registration can come to. -/
theorem enrol_cases (registry : Registry σ) (next : Registration σ) :
    (next.id = "" ∧ registry.enrol next = .error (.invalidSpec (.emptyField "slug"))) ∨
      (next.id ≠ "" ∧ (registry.get? next.id).isSome = true ∧
        registry.enrol next = .error (.alreadyRegistered next.id)) ∨
      (next.id ≠ "" ∧ registry.get? next.id = none ∧
        registry.enrol next =
          .ok { registry with agents := registry.agents ++ [(next.id, next.agent)] }) := by
  rw [enrol_eq, registerAs]
  by_cases hempty : next.id = ""
  · exact Or.inl ⟨hempty, by simp [hempty]⟩
  right
  by_cases hbound : (registry.get? next.id).isSome = true
  · exact Or.inl ⟨hempty, hbound, by simp [hempty, hbound]⟩
  · exact Or.inr ⟨hempty, by simpa using hbound, by simp [hempty, hbound]⟩

theorem enrol_error_iff :
    (∃ cause, registry.enrol next = .error cause) ↔
      next.id = "" ∨ (registry.get? next.id).isSome = true := by
  rcases enrol_cases registry next with ⟨hid, h⟩ | ⟨hid, hbound, h⟩ | ⟨hid, hfree, h⟩
  · simp [h, hid]
  · simp [h, hbound]
  · simp [h, hid, hfree]

theorem enrol_agents (h : registry.enrol next = .ok after) :
    after.agents = registry.agents ++ [(next.id, next.agent)] := by
  rcases enrol_cases registry next with ⟨-, h'⟩ | ⟨-, -, h'⟩ | ⟨-, -, h'⟩
  · rw [h'] at h
    cases h
  · rw [h'] at h
    cases h
  · rw [h'] at h
    cases h
    rfl

theorem Lawful.enrol (hlawful : registry.Lawful) (h : registry.enrol next = .ok after) :
    after.Lawful := by
  have hok : ¬∃ cause, registry.enrol next = .error cause := by
    rintro ⟨cause, hcause⟩
    rw [h] at hcause
    cases hcause
  rw [enrol_error_iff, not_or, get?_isSome_iff] at hok
  obtain ⟨hid, hfree⟩ := hok
  have hids : after.agents.map (·.1) = registry.agents.map (·.1) ++ [next.id] := by
    rw [enrol_agents h, List.map_append, List.map_singleton]
  constructor
  · rw [hids, ← List.concat_eq_append]
    exact hlawful.nodup.concat hfree
  · rw [hids, List.mem_append, List.mem_singleton]
    exact not_or.mpr ⟨hlawful.nonempty, Ne.symm hid⟩

/-! ## One after the other -/

theorem enrolAll_log (registry : Registry σ) (registrations : List (Registration σ)) :
    (registry.enrolAll registrations).1.map (·.1) = registrations := by
  induction registrations generalizing registry with
  | nil => rfl
  | cons next rest ih =>
    rw [enrolAll]
    split
    · exact congrArg (next :: ·) (ih _)
    · exact congrArg (next :: ·) (ih _)

/-- The registrations that succeed come behind what is bound already. -/
theorem enrolAll_agents (registry : Registry σ) (registrations : List (Registration σ)) :
    (registry.enrolAll registrations).2.agents =
      registry.agents ++ bound (registry.enrolAll registrations).1 := by
  induction registrations generalizing registry with
  | nil => exact (List.append_nil _).symm
  | cons next rest ih =>
    rw [enrolAll]
    split
    · exact ih _
    · rename_i after hafter
      rw [ih, enrol_agents hafter, List.append_assoc]
      rfl

theorem Lawful.enrolAll (h : registry.Lawful) (registrations : List (Registration σ)) :
    (registry.enrolAll registrations).2.Lawful := by
  induction registrations generalizing registry with
  | nil => exact h
  | cons next rest ih =>
    rw [Registry.enrolAll]
    split
    · exact ih h
    · rename_i after hafter
      exact ih (h.enrol hafter)

/-- A binding stays. -/
theorem get?_enrolAll (registrations : List (Registration σ)) (h : registry.get? id = some agent) :
    (registry.enrolAll registrations).2.get? id = some agent := by
  obtain ⟨entry, hentry, rfl⟩ := Option.map_eq_some_iff.mp h
  rw [get?, enrolAll_agents, List.find?_append, hentry]
  rfl

theorem lawful_empty (config : RunConfig) : (empty config : Registry σ).Lawful where
  nodup := List.nodup_nil
  nonempty := List.not_mem_nil

/-- An id has the agent of the first registration under it that succeeded. -/
theorem get?_of_log (config : RunConfig) (registrations : List (Registration σ)) (id : String) :
    ((empty config).enrolAll registrations).2.get? id =
      (((empty config).enrolAll registrations).1.find? fun entry =>
        entry.2.isOk && entry.1.id == id).map (·.1.agent) := by
  rw [get?, enrolAll_agents, bound]
  simp only [empty, List.nil_append, List.find?_map, List.find?_filter, Option.map_map,
    Bool.decide_and, Bool.decide_eq_true]
  rfl

/-! ## Finding an agent -/

theorem slugify_slugify (name : String) : slugify (slugify name) = slugify name := by
  by_cases h : slugify name = ""
  · rw [h]
    decide
  · exact slugify_of_valid (valid_slugify h)

theorem resolve_eq (registry : Registry σ) (text : String) :
    registry.resolve text =
      ((registry.get? text).map (text, ·)).or
        ((registry.get? (slugify text)).map (slugify text, ·)) := by
  rw [resolve]
  cases registry.get? text <;> rfl

/-- Where only slugs are bound, a text and its slug ask for one agent. -/
theorem resolve_slugify (h : ∀ id ∈ registry.ids, ∃ name, id = slugify name) (text : String) :
    registry.resolve text = registry.resolve (slugify text) := by
  rw [resolve_eq, resolve_eq, slugify_slugify, Option.or_self]
  cases hget : registry.get? text with
  | none => rfl
  | some agent =>
    obtain ⟨name, rfl⟩ := h text (mem_ids_iff.mpr (by rw [hget]; rfl))
    rw [slugify_slugify, hget]
    rfl

/-! ## Registries are written once -/

/-- What holds of a registry that some registrations filled, with the log of their answers. -/
structure WriteOnce (registrations : List (Registration σ)) (log : Log σ)
    (registry : Registry σ) : Prop where
  answered : log.map (·.1) = registrations
  first : ∀ id, registry.get? id =
    (log.find? fun entry => entry.2.isOk && entry.1.id == id).map (·.1.agent)
  kept : ∀ more id agent, registry.get? id = some agent →
    (registry.enrolAll more).2.get? id = some agent
  fails_iff : ∀ next, (∃ cause, registry.enrol next = .error cause) ↔
    next.id = "" ∨ (registry.get? next.id).isSome = true
  failing : ∀ next cause, registry.enrol next = .error cause →
    registry.enrolAll [next] = ([(next, .error cause)], registry)
  increasing : registry.ids.Pairwise (· < ·)
  ids : registry.ids.Perm ((log.filter (·.2.isOk)).map (·.1.id))
  resolves : ∀ text, registry.resolve text =
    ((registry.get? text).map (text, ·)).or ((registry.get? (slugify text)).map (slugify text, ·))
  -- Without slugs alone, an id that is no slug would be found under itself and not under its slug.
  spellings : (∀ id ∈ registry.ids, ∃ name, id = slugify name) →
    ∀ text, registry.resolve text = registry.resolve (slugify text)

theorem enrolAll_writeOnce (config : RunConfig) (registrations : List (Registration σ)) :
    WriteOnce registrations ((empty config).enrolAll registrations).1
      ((empty config).enrolAll registrations).2 := by
  have hlawful : ((empty config : Registry σ).enrolAll registrations).2.Lawful :=
    (lawful_empty config).enrolAll registrations
  have hagents := enrolAll_agents (empty config) registrations
  constructor
  case answered => exact enrolAll_log _ _
  case first => exact get?_of_log config registrations
  case kept => exact fun more _ _ => get?_enrolAll more
  case fails_iff => exact fun _ => enrol_error_iff
  case failing =>
    intro next cause h
    simp only [enrolAll, h]
  case increasing => exact hlawful.ids_increasing
  case ids =>
    refine (List.mergeSort_perm _ _).trans ?_
    rw [hagents, empty, List.nil_append, bound, List.map_map]
    exact List.Perm.refl _
  case resolves => exact resolve_eq _
  case spellings => exact resolve_slugify

/-- An agent with the behavior that its tools ask for. -/
def builtIn (name : String) : RegisteredAgent Unit :=
  ⟨.new name "b" "1", Behavior.ofSpec (.new name "b" "1")⟩

/-- Two agents whose names have one slug, an agent under no id, and one more agent. -/
def rivalRegistrations : List (Registration Unit) :=
  [.named (builtIn "Stock Bot"), .named (builtIn "stock bot"), .under "" (builtIn "Nobody"),
    .loaded "news-digest" (.new "News Digest" "b" "1")]

theorem enrolAll_writeOnce_rivals :
    let registry := ((empty ⟨false⟩).enrolAll rivalRegistrations).2
    (∃ cause, registry.enrol (.named (builtIn "STOCK--bot")) = .error cause) ∧
      registry.ids.Perm ["stock-bot", "news-digest"] ∧
      registry.resolve " Stock BOT!" = registry.resolve (slugify " Stock BOT!") := by
  obtain ⟨-, -, -, hfails, -, -, hids, -, hspellings⟩ :=
    enrolAll_writeOnce ⟨false⟩ rivalRegistrations
  have hbound : ((((empty ⟨false⟩).enrolAll rivalRegistrations).1.filter (·.2.isOk)).map
      (·.1.id)) = ["stock-bot", "news-digest"] := by decide +kernel
  rw [hbound] at hids
  refine ⟨(hfails _).mpr (Or.inr ?_), hids, hspellings ?_ " Stock BOT!"⟩
  · rw [← mem_ids_iff, hids.mem_iff]
    decide +kernel
  · intro id hid
    rw [hids.mem_iff] at hid
    have hslug : ∀ id ∈ ["stock-bot", "news-digest"], slugify id = id := by decide +kernel
    exact ⟨id, (hslug id hid).symm⟩

end Registry
end Agentry
