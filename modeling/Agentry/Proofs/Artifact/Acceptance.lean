import Agentry.Artifact.Template
import Agentry.Proofs.Artifact.Fence
import Agentry.Proofs.Requirement
import Mathlib.Data.List.Nodup
import Mathlib.Order.Bounds.Basic
/-!
# Which specs have an artifact

A spec is rendered when its identity and its tools are valid, its name has a slug, and each part has
a literal. The conditions are checked in one order, and the first that is not met is reported.
-/
namespace Agentry

open Requirement (Decides FirstUnmet forall_met_under under)

/-! ## Validity -/

/-- A character that is not blank stands in a text. -/
def Text.HasInk (s : String) : Prop :=
  ∃ c ∈ s.toList, Text.isBlank c = false

theorem Text.isAllBlank_iff {s : String} : Text.isAllBlank s = true ↔ ¬ Text.HasInk s := by
  simp [Text.isAllBlank, Text.HasInk]

namespace AgentSpec

def filled (field value : String) : Requirement SpecError :=
  ⟨Text.HasInk value, (· = .emptyField field)⟩

/-- The conditions on the tools that come after others. -/
def toolRequirements : List Tool → List Tool → List (Requirement SpecError)
  | _, [] => []
  | earlier, tool :: rest =>
    filled "tool id" tool.id ::
      ⟨∀ other ∈ earlier, other.id ≠ tool.id, (· = .duplicateTool tool.id)⟩ ::
        toolRequirements (earlier ++ [tool]) rest

def validityRequirements (spec : AgentSpec) : List (Requirement SpecError) :=
  filled "name" spec.name :: filled "description" spec.description ::
    filled "version" spec.version :: toolRequirements [] spec.tools

theorem validateTools_decides (tools : List Tool) : ∀ {seen : List String} {earlier : List Tool},
    (∀ id, id ∈ seen ↔ ∃ other ∈ earlier, other.id = id) →
      Decides (toolRequirements earlier tools) (validateTools seen tools) := by
  induction tools with
  | nil => exact fun _ => Decides.ok ()
  | cons tool rest ih =>
    intro seen earlier hseen
    apply Decides.guard Text.isAllBlank_iff fun e => Iff.rfl
    apply Decides.guard _ fun e => Iff.rfl
    · apply ih
      intro id
      simp [hseen, or_comm, eq_comm]
    · simp [hseen]

theorem validate_decides (spec : AgentSpec) : Decides spec.validityRequirements spec.validate := by
  apply Decides.guard Text.isAllBlank_iff fun e => Iff.rfl
  apply Decides.guard Text.isAllBlank_iff fun e => Iff.rfl
  apply Decides.guard Text.isAllBlank_iff fun e => Iff.rfl
  apply validateTools_decides
  simp

theorem toolRequirements_met {earlier tools : List Tool} :
    (∀ r ∈ toolRequirements earlier tools, r.Met) ↔
      (∀ tool ∈ tools, Text.HasInk tool.id) ∧ (tools.map (·.id)).Nodup ∧
        ∀ other ∈ earlier, ∀ tool ∈ tools, other.id ≠ tool.id := by
  induction tools generalizing earlier with
  | nil => simp [toolRequirements]
  | cons tool rest ih =>
    have hnew : tool.id ∉ rest.map (·.id) ↔ ∀ later ∈ rest, tool.id ≠ later.id := by
      simp [eq_comm]
    simp only [toolRequirements, filled, List.forall_mem_cons, ih, List.forall_mem_append,
      List.map_cons, List.nodup_cons, hnew, List.not_mem_nil, false_implies, implies_true, and_true,
      forall_and]
    tauto

end AgentSpec

/-! ## Literals -/

namespace Literal

/-- Every control character of a text has an escape. -/
def Writable (value : String) : Prop :=
  ∀ c ∈ value.toList, c.toNat < 0x20 → c = '\n' ∨ c = '\r' ∨ c = '\t'

theorem any_isUnwritable_iff {value : String} :
    value.toList.any isUnwritable = true ↔ ¬ Writable value := by
  have hchar : ∀ c, isUnwritable c = true ↔
      ¬ (c.toNat < 0x20 → c = '\n' ∨ c = '\r' ∨ c = '\t') := by
    intro c
    simp only [isUnwritable, Bool.and_eq_true, decide_eq_true_eq, bne_iff_ne]
    tauto
  simp only [List.any_eq_true, hchar, Writable]
  push Not
  rfl

/-- The fewest hashes, at least one, that never stand behind a quote in a text. -/
def NeedsFence (cs : List Char) (n : Nat) : Prop :=
  IsLeast {n | 0 < n ∧ ¬ closing n <:+: cs} n

theorem closing_infix_iff {h : Nat} (hpos : 0 < h) {cs : List Char} :
    closing h <:+: cs ↔ h < fenceLength cs := by
  rw [← Text.contains_iff_infix, ← (le_longestRun_iff hpos cs).1, fenceLength]
  omega

theorem needsFence_iff {cs : List Char} {n : Nat} : NeedsFence cs n ↔ n = fenceLength cs := by
  have hleast : NeedsFence cs (fenceLength cs) := by
    constructor
    · have hpos : 0 < fenceLength cs := Nat.succ_pos _
      exact ⟨hpos, by simp [closing_infix_iff hpos]⟩
    · rintro n ⟨hpos, hfree⟩
      simpa [closing_infix_iff hpos] using hfree
  exact ⟨fun h => h.unique hleast, fun h => h ▸ hleast⟩

/-- A text has a raw literal unless a quote in it has as many hashes behind it as a fence can
have. -/
def fenceable (cs : List Char) : Requirement LiteralError :=
  ⟨¬ closing maxFence <:+: cs, fun e => ∃ n, NeedsFence cs n ∧ e = .fenceTooLong n⟩

def writable (field value : String) : Requirement LiteralError :=
  ⟨Writable value, (· = .controlCharacter field)⟩

theorem fenced_decides (cs : List Char) : Decides [fenceable cs] (fenced cs) := by
  apply Decides.guard _ _ (Decides.ok _)
  · simp [fenceable, closing_infix_iff (show 0 < maxFence by decide)]
  · simp [fenceable, needsFence_iff]

theorem checkWritable_decides (field value : String) :
    Decides [writable field value] (checkWritable field value) :=
  (Decides.ok ()).guard any_isUnwritable_iff fun _ => Iff.rfl

theorem prompt_decides (text : String) :
    Decides [⟨'\r' ∉ text.toList, (· = .carriageReturn)⟩, fenceable text.toList] (prompt text) :=
  (fenced_decides text.toList).guard (by simp) fun _ => Iff.rfl

end Literal

/-! ## Rendering -/

namespace AgentSpec

def literalRequirements (spec : AgentSpec) : List (Requirement LiteralError) :=
  [Literal.writable "name" spec.name, Literal.writable "description" spec.description,
    Literal.writable "version" spec.version,
    ⟨'\r' ∉ spec.prompt.toList, (· = .carriageReturn)⟩, Literal.fenceable spec.prompt.toList,
    Literal.fenceable (Literal.toolsJson spec.tools Artifact.indent),
    Literal.fenceable (Literal.schemaJson spec.inputs Artifact.indent),
    Literal.fenceable (Literal.schemaJson spec.outputs Artifact.indent)]

theorem literals_decides (spec : AgentSpec) : Decides spec.literalRequirements spec.literals := by
  apply (Literal.checkWritable_decides "name" spec.name).bind
  intro _
  apply (Literal.checkWritable_decides "description" spec.description).bind
  intro _
  apply (Literal.checkWritable_decides "version" spec.version).bind
  intro _
  apply (Literal.prompt_decides spec.prompt).bind
  intro prompt
  apply (Literal.fenced_decides (Literal.toolsJson spec.tools Artifact.indent)).bind
  intro tools
  apply (Literal.fenced_decides (Literal.schemaJson spec.inputs Artifact.indent)).bind
  intro inputs
  apply (Literal.fenced_decides (Literal.schemaJson spec.outputs Artifact.indent)).map

/-- What a spec has to meet for an artifact under a slug, in the order of the checks. -/
def requirements (spec : AgentSpec) (slug : String) : List (Requirement AgentError) :=
  spec.validityRequirements.map (under .invalidSpec) ++
    ⟨slug ≠ "", (· = .invalidSpec (.emptyField "slug"))⟩ ::
      spec.literalRequirements.map (under .unwritable)

theorem renderAs_eq_bind (spec : AgentSpec) (slug : String) :
    spec.renderAs slug = (spec.validate.mapError AgentError.invalidSpec >>= fun _ =>
      if slug.isEmpty then .error (.invalidSpec (.emptyField "slug"))
      else spec.literals.mapError AgentError.unwritable >>= fun literals =>
        .ok ⟨slug, Artifact.fileNameOf slug, spec.digest,
          String.ofList (Artifact.sourceOf spec.digest slug literals)⟩) := by
  rw [renderAs]
  cases spec.validate with
  | error cause => rfl
  | ok _ => cases spec.literals <;> rfl

theorem renderAs_decides (spec : AgentSpec) (slug : String) :
    Decides (spec.requirements slug) (spec.renderAs slug) := by
  rw [renderAs_eq_bind]
  apply (spec.validate_decides.under AgentError.invalidSpec).bind
  intro _
  apply Decides.guard _ fun e => Iff.rfl
  · apply (spec.literals_decides.under AgentError.unwritable).map
  · simp

/-- What makes a spec one that has an artifact. -/
structure Renderable (spec : AgentSpec) : Prop where
  name : Text.HasInk spec.name
  description : Text.HasInk spec.description
  version : Text.HasInk spec.version
  toolIds : ∀ tool ∈ spec.tools, Text.HasInk tool.id
  distinctTools : (spec.tools.map (·.id)).Nodup
  slug : slugify spec.name ≠ ""
  writable : ∀ s ∈ [spec.name, spec.description, spec.version], Literal.Writable s
  noReturn : '\r' ∉ spec.prompt.toList
  fenceable : ∀ cs ∈ [spec.prompt.toList, Literal.toolsJson spec.tools Artifact.indent,
    Literal.schemaJson spec.inputs Artifact.indent,
    Literal.schemaJson spec.outputs Artifact.indent], ¬ Literal.closing Literal.maxFence <:+: cs

theorem requirements_met (spec : AgentSpec) :
    (∀ r ∈ spec.requirements (slugify spec.name), r.Met) ↔ spec.Renderable := by
  have hvalid : (∀ r ∈ spec.validityRequirements, r.Met) ↔ Text.HasInk spec.name ∧
      Text.HasInk spec.description ∧ Text.HasInk spec.version ∧
        (∀ tool ∈ spec.tools, Text.HasInk tool.id) ∧ (spec.tools.map (·.id)).Nodup := by
    simp [validityRequirements, filled, toolRequirements_met]
  have hliterals : (∀ r ∈ spec.literalRequirements, r.Met) ↔
      (∀ s ∈ [spec.name, spec.description, spec.version], Literal.Writable s) ∧
        '\r' ∉ spec.prompt.toList ∧
        ∀ cs ∈ [spec.prompt.toList, Literal.toolsJson spec.tools Artifact.indent,
          Literal.schemaJson spec.inputs Artifact.indent,
          Literal.schemaJson spec.outputs Artifact.indent],
          ¬ Literal.closing Literal.maxFence <:+: cs := by
    simp [literalRequirements, Literal.writable, Literal.fenceable, and_assoc]
  rw [requirements, List.forall_mem_append, List.forall_mem_cons, forall_met_under,
    forall_met_under, hvalid, hliterals]
  constructor
  · rintro ⟨⟨hname, hdescription, hversion, hids, hdistinct⟩, hslug, hwritable, hreturn, hfence⟩
    exact ⟨hname, hdescription, hversion, hids, hdistinct, hslug, hwritable, hreturn, hfence⟩
  · intro h
    exact ⟨⟨h.name, h.description, h.version, h.toolIds, h.distinctTools⟩, h.slug, h.writable,
      h.noReturn, h.fenceable⟩

/-- A spec has an artifact exactly when all conditions are met. Otherwise the error is that of the
first one that is not, where a fence that is too long is counted to its last hash. -/
theorem render_decided (spec : AgentSpec) :
    ((∃ a, spec.render = .ok a) ↔ spec.Renderable) ∧
      ∀ e, spec.render = .error e ↔ FirstUnmet (spec.requirements (slugify spec.name)) e := by
  have hdecides := spec.renderAs_decides (slugify spec.name)
  exact ⟨hdecides.ok_iff.trans spec.requirements_met, hdecides.error_iff⟩

end AgentSpec
end Agentry
