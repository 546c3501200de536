import Agentry.Proofs.Files.Path
import Mathlib.Data.List.Basic
/-!
# The name at the end of a path

A path has a name at its end when a step to another place than the parent is followed by slashes and
steps to the place itself alone. Nothing before that step counts.
-/
namespace Agentry.Path

/-- A step to a place that is neither the one it starts from nor the parent of that. -/
structure IsStep (step : List Char) : Prop where
  ne_nil : step ≠ []
  ne_here : step ≠ ['.']
  ne_parent : step ≠ ['.', '.']
  noSlash : '/' ∉ step

/-- What can stand before a step: nothing, or a path with a slash at its end. -/
def Opens (front : List Char) : Prop :=
  front = [] ∨ front.getLast? = some '/'

/-- What leads nowhere behind a step: slashes, and slashes with a dot. -/
inductive Stays : List Char → Prop where
  | done : Stays []
  | slash {rest : List Char} : Stays rest → Stays ('/' :: rest)
  | here {rest : List Char} : Stays rest → Stays ('/' :: '.' :: rest)

variable {front step rest cs : List Char}

theorem movingSteps_append (front rest : List Char) :
    movingSteps (front ++ '/' :: rest) = movingSteps front ++ movingSteps rest := by
  rw [movingSteps, pieces_append, List.filter_append]
  rfl

theorem movingSteps_of_noSlash (h : '/' ∉ cs) :
    movingSteps cs = if cs = [] ∨ cs = ['.'] then [] else [cs] := by
  rw [movingSteps, pieces, Text.splitOn_of_not_mem h]
  by_cases hnil : cs = []
  · simp [hnil]
  · by_cases hhere : cs = ['.'] <;> simp [hnil, hhere]

theorem IsStep.movingSteps_eq (h : IsStep step) : movingSteps step = [step] := by
  rw [movingSteps_of_noSlash h.noSlash, if_neg (by simp [h.ne_nil, h.ne_here])]

theorem Opens.movingSteps_append (h : Opens front) (cs : List Char) :
    movingSteps (front ++ cs) = movingSteps front ++ movingSteps cs := by
  rcases h with rfl | hlast
  · rfl
  · obtain ⟨base, rfl⟩ := List.getLast?_eq_some_iff.mp hlast
    have hempty : movingSteps [] = [] := rfl
    rw [List.append_assoc, List.singleton_append, Path.movingSteps_append, Path.movingSteps_append,
      hempty, List.append_nil]

theorem Stays.movingSteps_append (h : Stays rest) (front : List Char) :
    movingSteps (front ++ rest) = movingSteps front := by
  induction h generalizing front with
  | done => rw [List.append_nil]
  | @slash rest _ ih =>
    have hrest : movingSteps rest = [] := ih []
    rw [Path.movingSteps_append, hrest, List.append_nil]
  | @here rest _ ih =>
    have hrest : movingSteps ('.' :: rest) = [] := ih ['.']
    rw [Path.movingSteps_append, hrest, List.append_nil]

theorem Stays.append {more : List Char} (h : Stays rest) (hmore : Stays more) :
    Stays (rest ++ more) := by
  induction h with
  | done => exact hmore
  | slash _ ih => exact .slash ih
  | here _ ih => exact .here ih

theorem fileName_congr {other : List Char} (h : movingSteps cs = movingSteps other) :
    fileName cs = fileName other := by
  rw [fileName, h, fileName]

theorem fileName_around (hfront : Opens front) (hstep : IsStep step) (hrest : Stays rest) :
    fileName (front ++ (step ++ rest)) = some step := by
  have hsteps : movingSteps (front ++ (step ++ rest)) = movingSteps front ++ [step] := by
    rw [hfront.movingSteps_append, hrest.movingSteps_append, hstep.movingSteps_eq]
  simp only [fileName, hsteps, List.getLast?_concat, if_neg hstep.ne_parent]

theorem fileName_behind_slash {last : List Char} (hlast : '/' ∉ last) (front : List Char) :
    fileName (front ++ '/' :: last) =
      if last = [] ∨ last = ['.'] then fileName front else fileName last := by
  have hsteps := movingSteps_of_noSlash hlast
  split
  · rename_i hstays
    rw [if_pos hstays] at hsteps
    refine fileName_congr ?_
    rw [movingSteps_append, hsteps, List.append_nil]
  · rename_i hstays
    rw [if_neg hstays] at hsteps
    simp only [fileName, movingSteps_append, hsteps, List.getLast?_concat, List.getLast?_singleton]

theorem eq_of_fileName (h : '/' ∉ cs) (hname : fileName cs = some step) :
    IsStep step ∧ cs = step := by
  have hsteps := movingSteps_of_noSlash h
  by_cases hstays : cs = [] ∨ cs = ['.']
  · rw [if_pos hstays] at hsteps
    simp [fileName, hsteps] at hname
  · obtain ⟨hnil, hhere⟩ := not_or.mp hstays
    rw [if_neg hstays] at hsteps
    simp only [fileName, hsteps, List.getLast?_singleton] at hname
    split at hname
    · cases hname
    · rename_i hparent
      cases hname
      exact ⟨⟨hnil, hhere, hparent, h⟩, rfl⟩

theorem exists_last_slash (h : '/' ∈ cs) :
    ∃ front last, cs = front ++ '/' :: last ∧ '/' ∉ last := by
  obtain ⟨last, front, hsplit, hlast⟩ :=
    List.eq_append_cons_of_mem (List.mem_reverse.mpr h)
  refine ⟨front.reverse, last.reverse, ?_, by simpa using hlast⟩
  rw [← List.reverse_reverse cs, hsplit]
  simp

theorem exists_around_of_fileName (h : fileName cs = some step) :
    IsStep step ∧ ∃ front rest, Opens front ∧ Stays rest ∧ cs = front ++ (step ++ rest) := by
  -- The text behind the last slash holds the name, or leads nowhere and the name stands before it.
  induction hlength : cs.length using Nat.strongRecOn generalizing cs with
  | ind length ih =>
  by_cases hslash : '/' ∈ cs
  · obtain ⟨front, last, rfl, hlast⟩ := exists_last_slash hslash
    rw [fileName_behind_slash hlast] at h
    by_cases hstays : last = [] ∨ last = ['.']
    · have hshort : front.length < length := by
        rw [← hlength, List.length_append, List.length_cons]
        omega
      rw [if_pos hstays] at h
      obtain ⟨hstep, before, rest, hbefore, hrest, rfl⟩ := ih _ hshort h rfl
      have hlaststays : Stays ('/' :: last) := by
        rcases hstays with rfl | rfl
        · exact .slash .done
        · exact .here .done
      exact ⟨hstep, before, rest ++ '/' :: last, hbefore, hrest.append hlaststays, by simp⟩
    · rw [if_neg hstays] at h
      obtain ⟨hstep, rfl⟩ := eq_of_fileName hlast h
      exact ⟨hstep, front ++ ['/'], [], Or.inr (by simp), .done, by simp⟩
  · obtain ⟨hstep, rfl⟩ := eq_of_fileName hslash h
    exact ⟨hstep, [], [], Or.inl rfl, .done, by simp⟩

theorem fileName_eq_some_iff :
    fileName cs = some step ↔
      IsStep step ∧ ∃ front rest, Opens front ∧ Stays rest ∧ cs = front ++ (step ++ rest) := by
  refine ⟨exists_around_of_fileName, fun h => ?_⟩
  obtain ⟨hstep, front, rest, hfront, hrest, rfl⟩ := h
  exact fileName_around hfront hstep hrest

theorem fileName_eq_none_iff {path : String} :
    fileName path.toList = none ↔ ∀ name front rest : String,
      IsStep name.toList → Opens front.toList → Stays rest.toList →
        path ≠ front ++ name ++ rest := by
  constructor
  · rintro hnone name front rest hname hfront hrest rfl
    rw [String.toList_append, String.toList_append, List.append_assoc,
      fileName_around hfront hname hrest] at hnone
    cases hnone
  · intro h
    rw [Option.eq_none_iff_forall_ne_some]
    intro step hstep
    obtain ⟨hname, front, rest, hfront, hrest, heq⟩ := fileName_eq_some_iff.mp hstep
    refine h (String.ofList step) (String.ofList front) (String.ofList rest) ?_ ?_ ?_ ?_
    · rwa [String.toList_ofList]
    · rwa [String.toList_ofList]
    · rwa [String.toList_ofList]
    · rw [← String.toList_inj, heq]
      simp

theorem IsStep.fileName_eq (h : IsStep step) : fileName step = some step :=
  fileName_eq_some_iff.mpr ⟨h, [], [], Or.inl rfl, .done, by simp⟩

/-- A text of two dots has no step inside. -/
theorem IsStep.not_sublist_dots (h : IsStep step) : ¬ step.Sublist (List.replicate 2 '.') := by
  intro hsub
  obtain ⟨count, hcount, hstep⟩ := List.sublist_replicate_iff.mp hsub
  have hcases : count = 0 ∨ count = 1 ∨ count = 2 := by omega
  rcases hcases with rfl | rfl | rfl
  · exact h.ne_nil hstep
  · exact h.ne_here hstep
  · exact h.ne_parent hstep

theorem IsStep.around {before after : List Char} (h : IsStep step) (hbefore : '/' ∉ before)
    (hafter : '/' ∉ after) : IsStep (before ++ (step ++ after)) := by
  have hsub : step.Sublist (before ++ (step ++ after)) :=
    (List.sublist_append_left step after).trans (List.sublist_append_right before _)
  refine ⟨by simp [h.ne_nil], fun he => h.not_sublist_dots ?_, fun he => h.not_sublist_dots ?_, ?_⟩
  · rw [he] at hsub
    exact hsub.trans (by decide)
  · rwa [he] at hsub
  · simp [hbefore, hafter, h.noSlash]

end Agentry.Path
