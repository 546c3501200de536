import Agentry.Proofs.Decimal.Rounding
import Agentry.Proofs.Invocation.Coercion
import Agentry.Proofs.Json.Printer
import Agentry.Proofs.Text
/-!
# Integers in number fields

The text of an integer is read as the nearest double, and a double that is a whole number below the
limit is an integer again. So an integer comes back as itself exactly if 53 bits can write it.
-/
namespace Agentry

open Decimal (Binary64 Nearest Significant roundTo53 unitsPerOne)
open Json (decimalDigits digitsValue integerText isDigit)
open Json.Numeral (isDigit_of_mem_decimalDigits digitsValue_decimalDigits)

namespace Argument

/-! ## The text of an integer -/

theorem toList_toString (n : Int) : (toString n).toList = integerText n := by
  cases n with
  | ofNat k =>
    have hnat : ¬ ((k : Int) < 0) := by omega
    simp [toString, Int.repr, integerText, decimalDigits, hnat]
  | negSucc k =>
    simp [toString, Int.repr, integerText, decimalDigits, Int.negSucc_lt_zero]

theorem trimChars_integerText (n : Int) : Text.trimChars (integerText n) = integerText n := by
  have hdigit : ∀ c ∈ decimalDigits n.natAbs, Text.isBlank c = false := by
    intro c hc
    have hrange := isDigit_of_mem_decimalDigits hc
    simp only [isDigit, Bool.and_eq_true, decide_eq_true_eq] at hrange
    exact Text.isBlank_of_visible (by omega) (by omega)
  refine Text.trimChars_of_not_blank ?_
  unfold integerText
  split
  · exact List.forall_mem_cons.mpr ⟨by decide, hdigit⟩
  · exact hdigit

/-! ## Its double -/

theorem numberText_integerText (n : Int) :
    NumberText (decide (n < 0)) n.natAbs 0 (integerText n) := by
  obtain ⟨digits, hdigits⟩ := exists_spelled fun _ =>
    isDigit_of_mem_decimalDigits (k := n.natAbs)
  have hne : digits ≠ [] := by
    rintro rfl
    exact Nat.toDigits_ne_nil hdigits
  have hworth : worth digits = n.natAbs := by
    rw [← digitsValue_spelled, ← hdigits, digitsValue_decimalDigits]
  have htext : ∀ {negative sign}, Json.Numeral.SignText negative sign →
      NumberText negative n.natAbs 0 (sign ++ decimalDigits n.natAbs) := by
    intro negative sign hsign
    have hnumber := NumberText.intro hsign (.whole hne) .absent
    rwa [List.append_nil, List.append_nil, hworth, ← hdigits] at hnumber
  unfold integerText
  split
  · rename_i hn
    rw [decide_eq_true hn]
    exact htext .minus
  · rename_i hn
    rw [decide_eq_false hn]
    exact htext .none

theorem ofDecimal_zero (negative : Bool) (k : Nat) (h : k < Nat.pow 2 64) :
    Binary64.ofDecimal negative k 0 = some ⟨negative, roundTo53 k 1 * unitsPerOne⟩ := by
  by_cases hk : k = 0
  · subst hk
    have hround : roundTo53 0 1 = 0 := by decide
    simp [Binary64.ofDecimal, Binary64.zero, hround]
  · simp [Binary64.ofDecimal, hk, Decimal.ofQuotient_one negative h]

theorem readNumber_integerText {n : Int} (hn : n.natAbs < Nat.pow 2 64) :
    readNumber (integerText n) =
      some ⟨decide (n < 0), roundTo53 n.natAbs 1 * unitsPerOne⟩ := by
  rw [(numberText_integerText n).readNumber_eq, ofDecimal_zero _ _ hn]

/-- A double that is a whole number: an integer below the limit. -/
def wholeNumber (negative : Bool) (m : Nat) : Json.Number :=
  if m < Nat.pow 2 63 then .integer (if negative then -(m : Int) else m)
  else .float ⟨negative, m * unitsPerOne⟩

theorem numberOf_units (negative : Bool) (m : Nat) :
    numberOf ⟨negative, m * unitsPerOne⟩ = wholeNumber negative m := by
  rw [wholeNumber]
  split
  · rename_i hm
    exact numberOf_integer hm
  · rename_i hm
    refine numberOf_float fun n hn heq => hm ?_
    rwa [Nat.eq_of_mul_eq_mul_right Decimal.unitsPerOne_pos heq]

theorem wholeNumber_eq_iff {n : Int} {m : Nat} (hn : n.natAbs < Nat.pow 2 63) :
    wholeNumber (decide (n < 0)) m = .integer n ↔ m = n.natAbs := by
  have hsigned : (if decide (n < 0) then -(m : Int) else m) = n ↔ m = n.natAbs := by
    by_cases hneg : n < 0 <;> simp only [hneg, decide_true, decide_false, if_true,
      Bool.false_eq_true, if_false] <;> omega
  by_cases hlimit : m < Nat.pow 2 63
  · rw [wholeNumber, if_pos hlimit, Json.Number.integer.injEq, hsigned]
  · rw [wholeNumber, if_neg hlimit]
    constructor
    · intro h
      cases h
    · intro h
      omega

theorem number?_integer {n : Int} (hn : n.natAbs < Nat.pow 2 64) {before after : String}
    (hbefore : Text.isAllBlank before = true) (hafter : Text.isAllBlank after = true) :
    number? (before ++ toString n ++ after) =
      some (wholeNumber (decide (n < 0)) (roundTo53 n.natAbs 1)) := by
  rw [← numberOf_units, number?, String.toList_append, String.toList_append, toList_toString,
    List.append_assoc, Text.trimChars_around (List.all_eq_true.mp hbefore)
      (List.all_eq_true.mp hafter), trimChars_integerText, readNumber_integerText hn,
    Option.map_some]

end Argument

namespace Input

open Argument (wholeNumber)

/-- The text of an integer becomes the nearest double in a number field, under both rules for
numbers and with blanks around it. -/
theorem coerce_integer {n : Int} (hn : n.natAbs < Nat.pow 2 63) {before after : String}
    (hbefore : Text.isAllBlank before = true) (hafter : Text.isAllBlank after = true) :
    ∃ m, Nearest n.natAbs m ∧ m ≤ Nat.pow 2 63 ∧
      let text := before ++ toString n ++ after
      let number := wholeNumber (decide (n < 0)) m
      (number = .integer n ↔ Significant n.natAbs) ∧
      (n.natAbs ≤ Nat.pow 2 53 → number = .integer n) ∧
      (∀ strict name, Argument.value strict name .number text = .ok (.number number)) ∧
      ∀ (schema : Schema) (arguments : List String) (strict : Bool) (i : Nat) (name : String)
        (field : FieldSpec), schema.names.Nodup → schema.fields[i]? = some (name, field) →
        field.type = .number → arguments[i]? = some text →
        (∀ e, ¬ Refuses strict schema.fields arguments i e) ∧
        ∀ record, coerce schema arguments strict = .ok record →
          record.get? name = some (.number number) := by
  have hnearest := Decimal.nearest_roundTo53 n.natAbs
  have hitself : wholeNumber (decide (n < 0)) (roundTo53 n.natAbs 1) = .integer n ↔
      Significant n.natAbs := (Argument.wholeNumber_eq_iff hn).trans hnearest.eq_iff
  have hnumber := Argument.number?_integer (hn.trans (by decide)) hbefore hafter
  refine ⟨roundTo53 n.natAbs 1, hnearest, ?_, hitself, ?_, ?_, ?_⟩
  · exact hnearest.le_of_significant ⟨1, 63, by decide, (Nat.one_mul _).symm⟩ hn.le
  · intro hle
    exact hitself.mpr (Decimal.significant_of_le hle)
  · intro strict name
    simp only [Argument.value, hnumber]
  · intro schema arguments strict i name field hnames hfield htype hargument
    constructor
    · intro e
      refine not_refuses_of_argument hfield hargument ?_
      rintro ⟨-, -, hnone⟩
      exact hnone _ (Argument.number?_eq_some_iff.mp hnumber)
    · intro record hok
      rw [get?_of_coerce hnames hok hfield, hargument, htype]
      simp only [Option.map_some, Argument.meaning, hnumber, Option.getD_some]

/-- A power of two past `2^53` is a double and comes back. -/
theorem coerce_integer_power :
    Argument.value true "count" .number " -4611686018427387904\t" =
        .ok (.number (.integer (-4611686018427387904))) ∧
      Argument.value false "count" .number " -4611686018427387904\t" =
        .ok (.number (.integer (-4611686018427387904))) := by
  obtain ⟨m, -, -, hitself, -, hvalue, -⟩ := 
    @coerce_integer (-4611686018427387904) (by decide) " " "\t" (by decide) (by decide)
  have htext : " " ++ toString (-4611686018427387904 : Int) ++ "\t" =
      " -4611686018427387904\t" := by decide
  rw [hitself.mpr ⟨1, 62, by decide, by decide⟩, htext] at hvalue
  exact ⟨hvalue true "count", hvalue false "count"⟩

/-- The odd number past `2^53` is no double, and the largest integer is rounded past the limit. -/
theorem coerce_integer_rounded :
    Argument.value false "count" .number (toString (9007199254740993 : Int)) =
        .ok (.number (.integer 9007199254740992)) ∧
      Argument.value true "count" .number (toString (9007199254740993 : Int)) =
        .ok (.number (.integer 9007199254740992)) ∧
      Json.Number.integer 9007199254740992 ≠ .integer 9007199254740993 ∧
      Argument.value true "count" .number (toString (9223372036854775807 : Int)) =
        .ok (.number (.float ⟨false, Nat.pow 2 63 * unitsPerOne⟩)) := by
  have hodd : Argument.number? (toString (9007199254740993 : Int)) =
      some (.integer 9007199254740992) := by decide +kernel
  have hlargest : Argument.number? (toString (9223372036854775807 : Int)) =
      some (.float ⟨false, Nat.pow 2 63 * unitsPerOne⟩) := by decide +kernel
  simp only [Argument.value, hodd, hlargest]
  exact ⟨trivial, trivial, by decide, trivial⟩

end Input
end Agentry
