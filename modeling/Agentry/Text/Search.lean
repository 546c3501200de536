/-!
# Finding, cutting and replacing inside a text

`cut` splits a text at the first occurrence of a pattern and drops that occurrence; a text is its
cut pieces with the pattern between them.
-/
namespace Agentry.Text

/-- What stands before and after the first occurrence of `pattern`. -/
def cut (pattern : List Char) : List Char → Option (List Char × List Char)
  | [] => if pattern.isEmpty then some ([], []) else none
  | c :: rest =>
    if pattern.isPrefixOf (c :: rest) then some ([], (c :: rest).drop pattern.length)
    else (cut pattern rest).map fun (before, after) => (c :: before, after)

def contains (pattern : List Char) (cs : List Char) : Bool :=
  (cut pattern cs).isSome

/-- The pieces between the occurrences of a character: one more than there are occurrences. -/
def splitOn (sep : Char) : List Char → List (List Char)
  | [] => [[]]
  | c :: rest =>
    match splitOn sep rest with
    | piece :: pieces => if c = sep then [] :: piece :: pieces else (c :: piece) :: pieces
    | [] => [[c]]

/-- A line that a line feed ended, without the carriage return before that line feed. -/
def endedLine (line : List Char) : List Char :=
  if line.getLast? = some '\r' then line.dropLast else line

/-- The lines of a text without their ends. What follows the last line feed is a line only when it
is not empty. -/
def lines (cs : List Char) : List (List Char) :=
  let pieces := splitOn '\n' cs
  let ended := pieces.dropLast.map endedLine
  match pieces.getLast? with
  | some (c :: line) => ended ++ [c :: line]
  | _ => ended

/-- Replaces from the left, `skip` characters of an occurrence being still to pass over. -/
def replaceFrom (pattern replacement : List Char) : Nat → List Char → List Char
  | _, [] => []
  | skip + 1, _ :: rest => replaceFrom pattern replacement skip rest
  | 0, c :: rest =>
    if pattern.isPrefixOf (c :: rest) then
      replacement ++ replaceFrom pattern replacement (pattern.length - 1) rest
    else c :: replaceFrom pattern replacement 0 rest

/-- Every occurrence of a pattern replaced, from the left and without overlap. The empty pattern
occurs before every character and at the end. -/
def replaceAll (pattern replacement : List Char) (cs : List Char) : List Char :=
  if pattern.isEmpty then cs.flatMap (fun c => replacement ++ [c]) ++ replacement
  else replaceFrom pattern replacement 0 cs

theorem splitOn_ne_nil (sep : Char) (cs : List Char) : splitOn sep cs ≠ [] := by
  cases cs with
  | nil => simp [splitOn]
  | cons c rest =>
    simp only [splitOn]
    split
    · split <;> simp
    · simp

theorem eq_of_cut {pattern cs before after : List Char}
    (h : cut pattern cs = some (before, after)) : cs = before ++ pattern ++ after := by
  induction cs generalizing before after with
  | nil =>
    simp only [cut] at h
    split at h <;> simp_all
  | cons c rest ih =>
    simp only [cut] at h
    split at h
    · rename_i hp
      obtain ⟨tail, ht⟩ := List.isPrefixOf_iff_prefix.mp hp
      obtain ⟨rfl, rfl⟩ : [] = before ∧ (c :: rest).drop pattern.length = after := by
        simpa using h
      rw [← ht]
      simp
    · obtain ⟨pieces, hcut, heq⟩ := Option.map_eq_some_iff.mp h
      obtain ⟨rfl, rfl⟩ : c :: pieces.1 = before ∧ pieces.2 = after := by simpa using heq
      simp [ih hcut]

end Agentry.Text
