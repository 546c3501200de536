import Mathlib.Data.List.Basic
/-!
# Checks in order

A function that makes one check after another succeeds when every condition is met. Otherwise it
fails with what the first condition that is not met reports.
-/
namespace Agentry

/-- A condition, and the errors that its failure is reported with. -/
structure Requirement (ε : Type) where
  Met : Prop
  Reports : ε → Prop

namespace Requirement

variable {ε ε' α β : Type} {r : Requirement ε} {rs later : List (Requirement ε)} {e : ε}

/-- The same condition, its errors wrapped into another type. -/
def under (wrap : ε → ε') (r : Requirement ε) : Requirement ε' :=
  ⟨r.Met, fun e => ∃ cause, r.Reports cause ∧ e = wrap cause⟩

/-- An error of the first condition that is not met. -/
def FirstUnmet (rs : List (Requirement ε)) (e : ε) : Prop :=
  ∃ before r after, rs = before ++ r :: after ∧ (∀ q ∈ before, q.Met) ∧ ¬ r.Met ∧ r.Reports e

structure Decides (rs : List (Requirement ε)) (result : Except ε α) : Prop where
  ok_iff : (∃ a, result = .ok a) ↔ ∀ r ∈ rs, r.Met
  error_iff : ∀ e, result = .error e ↔ FirstUnmet rs e

/-! ## The first condition that is not met -/

theorem firstUnmet_nil : ¬ FirstUnmet [] e := by
  rintro ⟨before, r, after, heq, -⟩
  simp at heq

theorem firstUnmet_cons :
    FirstUnmet (r :: rs) e ↔ ¬ r.Met ∧ r.Reports e ∨ r.Met ∧ FirstUnmet rs e := by
  constructor
  · rintro ⟨before, q, after, heq, hbefore, hunmet, he⟩
    rcases List.cons_eq_append_iff.mp heq with ⟨rfl, heq⟩ | ⟨front, rfl, rfl⟩
    · obtain ⟨rfl, -⟩ := List.cons.inj heq
      exact Or.inl ⟨hunmet, he⟩
    · obtain ⟨hmet, hfront⟩ := List.forall_mem_cons.mp hbefore
      exact Or.inr ⟨hmet, front, q, after, rfl, hfront, hunmet, he⟩
  · rintro (⟨hunmet, he⟩ | ⟨hmet, before, q, after, rfl, hbefore, hunmet, he⟩)
    · exact ⟨[], r, rs, rfl, by simp, hunmet, he⟩
    · exact ⟨r :: before, q, after, rfl, List.forall_mem_cons.mpr ⟨hmet, hbefore⟩, hunmet, he⟩

theorem firstUnmet_append :
    FirstUnmet (rs ++ later) e ↔
      FirstUnmet rs e ∨ (∀ r ∈ rs, r.Met) ∧ FirstUnmet later e := by
  induction rs with
  | nil => simp [firstUnmet_nil]
  | cons r rs ih =>
    rw [List.cons_append, firstUnmet_cons, firstUnmet_cons, ih, List.forall_mem_cons]
    tauto

theorem firstUnmet_under {wrap : ε → ε'} {e : ε'} :
    FirstUnmet (rs.map (under wrap)) e ↔ ∃ cause, FirstUnmet rs cause ∧ e = wrap cause := by
  induction rs with
  | nil => simp [firstUnmet_nil]
  | cons r rs ih =>
    rw [List.map_cons, firstUnmet_cons, ih]
    simp only [firstUnmet_cons, under]
    constructor
    · rintro (⟨hunmet, cause, hcause, rfl⟩ | ⟨hmet, cause, hcause, rfl⟩)
      · exact ⟨cause, Or.inl ⟨hunmet, hcause⟩, rfl⟩
      · exact ⟨cause, Or.inr ⟨hmet, hcause⟩, rfl⟩
    · rintro ⟨cause, ⟨hunmet, hcause⟩ | ⟨hmet, hcause⟩, rfl⟩
      · exact Or.inl ⟨hunmet, cause, hcause, rfl⟩
      · exact Or.inr ⟨hmet, cause, hcause, rfl⟩

theorem forall_met_under {wrap : ε → ε'} :
    (∀ r ∈ rs.map (under wrap), r.Met) ↔ ∀ r ∈ rs, r.Met := by
  simp [under]

/-! ## Steps of a function -/

namespace Decides

theorem ok (a : α) : Decides [] (Except.ok (ε := ε) a) where
  ok_iff := by simp
  error_iff := by simp [firstUnmet_nil]

/-- A check with one error, before what the rest of the function decides. -/
theorem guard {c : Prop} [Decidable c] {e : ε} {result : Except ε α} (hc : c ↔ ¬ r.Met)
    (he : ∀ e', r.Reports e' ↔ e' = e) (hrest : Decides rs result) :
    Decides (r :: rs) (if c then .error e else result) := by
  by_cases hmet : r.Met
  · rw [if_neg (by simpa [hc] using hmet)]
    constructor
    · simp [hrest.ok_iff, hmet]
    · simp [hrest.error_iff, firstUnmet_cons, hmet]
  · rw [if_pos (hc.mpr hmet)]
    constructor
    · simp [hmet]
    · simp [firstUnmet_cons, hmet, he, eq_comm]

theorem bind {x : Except ε α} {f : α → Except ε β} (hx : Decides rs x)
    (hf : ∀ a, Decides later (f a)) : Decides (rs ++ later) (x >>= f) := by
  cases x with
  | error e =>
    have hunmet : ¬ ∀ r ∈ rs, r.Met := mt hx.ok_iff.mpr (by simp)
    constructor
    · simp only [List.forall_mem_append, hunmet, false_and]
      simp [Bind.bind, Except.bind]
    · intro e'
      rw [firstUnmet_append, ← hx.error_iff]
      simp [Bind.bind, Except.bind, hunmet]
  | ok a =>
    have hmet : ∀ r ∈ rs, r.Met := hx.ok_iff.mp ⟨a, rfl⟩
    constructor
    · rw [List.forall_mem_append, and_iff_right hmet]
      exact (hf a).ok_iff
    · intro e'
      rw [firstUnmet_append, ← hx.error_iff, and_iff_right hmet]
      simpa [Bind.bind, Except.bind] using (hf a).error_iff e'

/-- A last step that cannot fail. -/
theorem map {x : Except ε α} (hx : Decides rs x) (f : α → β) :
    Decides rs (x >>= fun a => .ok (f a)) := by
  simpa using hx.bind fun a => ok (f a)

theorem under {x : Except ε α} (hx : Decides rs x) (wrap : ε → ε') :
    Decides (rs.map (Requirement.under wrap)) (x.mapError wrap) where
  ok_iff := by
    rw [forall_met_under, ← hx.ok_iff]
    cases x <;> simp [Except.mapError]
  error_iff e := by
    rw [firstUnmet_under]
    simp only [← hx.error_iff]
    cases x <;> simp [Except.mapError, eq_comm]

end Decides
end Requirement
end Agentry
