import Agentry.Files.Path
import Agentry.Proofs.Text
/-!
# Names behind a path

A name put behind the path of a directory is one more step. What a slash at the end of the path asks
for, the step to the name asks for as well.
-/
namespace Agentry.Path

/-- What can stand behind a path as a step of its own. -/
structure IsName (name : String) : Prop where
  ne_empty : name ≠ ""
  ne_here : name ≠ "."
  ne_parent : name ≠ ".."
  noSlash : '/' ∉ name.toList
  noNul : '\x00' ∉ name.toList

variable {base name : String}

theorem pieces_append (front rest : List Char) :
    pieces (front ++ '/' :: rest) = pieces front ++ pieces rest := by
  rw [pieces, Text.splitOn_append_cons, List.filter_append]
  rfl

theorem IsName.toList_ne_nil (h : IsName name) : name.toList ≠ [] :=
  fun hnil => h.ne_empty (String.toList_eq_nil_iff.mp hnil)

theorem IsName.pieces_eq (h : IsName name) : pieces name.toList = [name.toList] := by
  rw [pieces, Text.splitOn_of_not_mem h.noSlash]
  simp [h.toList_ne_nil]

theorem IsName.getLast_ne (h : IsName name) (front : List Char) :
    (front ++ name.toList).getLast? ≠ some '/' := by
  have hlast := List.dropLast_concat_getLast h.toList_ne_nil
  have hc : name.toList.getLast h.toList_ne_nil ≠ '/' := by
    intro hslash
    exact h.noSlash (hslash ▸ List.getLast_mem h.toList_ne_nil)
  rw [← hlast, ← List.append_assoc, List.getLast?_concat]
  simpa using hc

theorem IsName.not_isAbsolute (h : IsName name) : isAbsolute name = false := by
  refine decide_eq_false fun hhead => h.noSlash ?_
  exact List.mem_of_mem_head? (by rw [hhead]; rfl)

/-- A joined path is the base, a slash unless the base has one at its end, and the name. -/
theorem toList_join (hbase : base ≠ "") :
    ∃ front, (∀ {name : String}, IsName name →
        (join base name).toList = front ++ '/' :: name.toList) ∧
      (base.toList = front ∧ base.toList.getLast? ≠ some '/' ∨ base.toList = front ++ ['/']) := by
  have hempty : base.isEmpty = false := by simpa using hbase
  by_cases hlast : base.toList.getLast? = some '/'
  · obtain ⟨front, hfront⟩ := List.getLast?_eq_some_iff.mp hlast
    refine ⟨front, fun hname => ?_, Or.inr hfront⟩
    simp [join, hname.not_isAbsolute, hfront]
  · refine ⟨base.toList, fun hname => ?_, Or.inl ⟨rfl, hlast⟩⟩
    simp [join, hname.not_isAbsolute, hempty, hlast]

theorem join_empty (hname : IsName name) : join "" name = name := by
  simp [join, hname.not_isAbsolute]

theorem IsName.steps_eq (h : IsName name) : steps name = [name] := by
  have hlast : name.toList.getLast? ≠ some '/' := h.getLast_ne []
  rw [steps, if_neg hlast, h.pieces_eq]
  simp

/-- The steps of a joined path are those of the base, without the last one that a slash at its end
stands for, and the name. -/
theorem steps_join (base : String) :
    ∃ front, (∀ {name : String}, IsName name → steps (join base name) = front ++ [name]) ∧
      (steps base = front ∨ steps base = front ++ ["."]) := by
  by_cases hbase : base = ""
  · subst hbase
    exact ⟨[], fun hname => by rw [join_empty hname, hname.steps_eq, List.nil_append], Or.inl rfl⟩
  obtain ⟨front, hjoin, hfront⟩ := toList_join hbase
  refine ⟨(pieces front).map String.ofList, fun {name} hname => ?_, ?_⟩
  · have hlast := hname.getLast_ne (front ++ ['/'])
    rw [List.append_assoc, List.singleton_append] at hlast
    rw [steps, hjoin hname, if_neg hlast, pieces_append, hname.pieces_eq]
    simp
  · rcases hfront with ⟨hfront, hlast⟩ | hfront
    · left
      rw [steps, if_neg hlast, hfront]
    · right
      have hlast : base.toList.getLast? = some '/' := by rw [hfront, List.getLast?_concat]
      rw [steps, if_pos hlast, hfront, pieces_append]
      simp [pieces, Text.splitOn]

theorem isAbsolute_join (base : String) (hname : IsName name) :
    isAbsolute (join base name) = isAbsolute base := by
  by_cases hbase : base = ""
  · rw [hbase, join_empty hname, hname.not_isAbsolute]
    rfl
  obtain ⟨front, hjoin, hfront⟩ := toList_join hbase
  have hne : base.toList ≠ [] := fun hnil => hbase (String.toList_eq_nil_iff.mp hnil)
  simp only [isAbsolute, hjoin hname]
  rcases hfront with ⟨hfront, -⟩ | hfront
  · rw [hfront] at hne ⊢
    cases front with
    | nil => exact absurd rfl hne
    | cons c front => rfl
  · rw [hfront]
    cases front <;> rfl

theorem nul_mem_join (hbase : base ≠ "") (hname : IsName name) :
    '\x00' ∈ (join base name).toList ↔ '\x00' ∈ base.toList := by
  obtain ⟨front, hjoin, hfront⟩ := toList_join hbase
  rw [hjoin hname]
  rcases hfront with ⟨hfront, -⟩ | hfront
  · simp [hfront, hname.noNul]
  · simp [hfront, hname.noNul]

theorem mem_join_of_mem (base : String) {path : String} {c : Char} (h : c ∈ path.toList) :
    c ∈ (join base path).toList := by
  unfold join
  split
  · exact h
  split
  · simp [h]
  · simp [h]

theorem join_ne_empty (hbase : base ≠ "") (hname : IsName name) : join base name ≠ "" := by
  obtain ⟨front, hjoin, -⟩ := toList_join hbase
  intro h
  have hlist := hjoin hname
  rw [h] at hlist
  simp at hlist

/-- The steps that lead somewhere are the steps but for those to the place itself. -/
theorem movingSteps_eq (path : String) :
    (movingSteps path.toList).map String.ofList = (steps path).filter (· ≠ ".") := by
  have hpiece : ∀ cs : List Char, cs = ['.'] ↔ String.ofList cs = "." := by
    intro cs
    rw [← String.toList_inj, String.toList_ofList]
    rfl
  have hmap : ∀ ps : List (List Char), (ps.filter (· ≠ ['.'])).map String.ofList =
      (ps.map String.ofList).filter (· ≠ ".") := by
    intro ps
    rw [List.filter_map]
    refine congrArg _ (List.filter_congr fun cs _ => ?_)
    simp [hpiece]
  rw [movingSteps, hmap, steps]
  split
  · simp
  · rfl

end Agentry.Path
