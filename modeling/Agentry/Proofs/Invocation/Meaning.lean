import Agentry.Invocation.Coercion
import Agentry.Proofs.Decimal.Rounding
import Agentry.Proofs.Json.Numeral
import Agentry.Proofs.Text
import Agentry.Proofs.Text.Lowercase
import Mathlib.Data.List.Induction
import Mathlib.Data.Nat.Digits.Defs
/-!
# What an argument means

The meaning of a text depends on a type alone, and is said here without reading the text from its
front. A number is a sign, digits with or without a point among them, and a power of ten, and it
stands for the nearest double if there is one; a whole one is an integer. Items stand between
commas, and the blanks around them do not belong to them.
-/
namespace Agentry.Argument

open Decimal (Binary64 NearestUnits unitsLimit unitsPerOne)
open Json (Value isDigit digitsValue)
open Json.Numeral (SignText)
open Text (Trimmed)

/-! ## Numbers -/

def spelled (digits : List (Fin 10)) : List Char :=
  digits.map fun d : Fin 10 => Nat.digitChar d.val

/-- The number that digits stand for, the last of which counts ones. -/
def worth (digits : List (Fin 10)) : Nat :=
  Nat.ofDigits 10 (digits.map Fin.val).reverse

/-- The power of ten that a number is multiplied by. -/
inductive ExponentText : Int → List Char → Prop
  | absent : ExponentText 0 []
  | present {e : Char} {negative : Bool} {sign : List Char} {digits : List (Fin 10)}
    (he : e = 'e' ∨ e = 'E') (hsign : SignText negative sign) (hne : digits ≠ []) :
    ExponentText (if negative then -(worth digits : Int) else worth digits)
      (e :: (sign ++ spelled digits))

/-- Digits before a point and behind it. The point can be left out if none are behind it, and there
has to be a digit. -/
inductive DigitsText : List (Fin 10) → List (Fin 10) → List Char → Prop
  | whole {whole : List (Fin 10)} (hne : whole ≠ []) : DigitsText whole [] (spelled whole)
  | pointed {whole fraction : List (Fin 10)} (hne : whole ≠ [] ∨ fraction ≠ []) :
    DigitsText whole fraction (spelled whole ++ '.' :: spelled fraction)

/-- A number that is `digits * 10^exponent`, with its sign. -/
inductive NumberText : Bool → Nat → Int → List Char → Prop
  | intro {negative : Bool} {whole fraction : List (Fin 10)} {exponent : Int}
    {sign digits power : List Char} (hsign : SignText negative sign)
    (hdigits : DigitsText whole fraction digits) (hpower : ExponentText exponent power) :
    NumberText negative (worth (whole ++ fraction)) (exponent - fraction.length)
      (sign ++ (digits ++ power))

/-- The number of a text: the nearest double, which is finite. One that is a whole number is an
integer, unless 63 bits cannot hold it. -/
inductive Denotes (text : String) : Json.Number → Prop
  | integer {core : List Char} {negative : Bool} {digits n : Nat} {exponent : Int}
    (htrimmed : Trimmed text.toList core) (htext : NumberText negative digits exponent core)
    (hnearest : NearestUnits digits exponent (n * unitsPerOne)) (hlimit : n < Nat.pow 2 63) :
    Denotes text (.integer (if negative then -(n : Int) else n))
  | float {core : List Char} {negative : Bool} {digits units : Nat} {exponent : Int}
    (htrimmed : Trimmed text.toList core) (htext : NumberText negative digits exponent core)
    (hnearest : NearestUnits digits exponent units) (hfinite : units < unitsLimit)
    (hother : ∀ n < Nat.pow 2 63, units ≠ n * unitsPerOne) :
    Denotes text (.float ⟨negative, units⟩)

/-! ### Digits -/

theorem isDigit_of_mem_spelled {digits : List (Fin 10)} :
    ∀ c ∈ spelled digits, isDigit c = true := by
  intro c hc
  obtain ⟨d, -, rfl⟩ := List.mem_map.mp hc
  have hdigit : ∀ d : Fin 10, isDigit (Nat.digitChar d.val) = true := by decide
  exact hdigit d

theorem exists_digitChar {c : Char} (h : isDigit c = true) :
    ∃ d : Fin 10, Nat.digitChar d.val = c := by
  simp only [isDigit, Bool.and_eq_true, decide_eq_true_eq] at h
  have hlt : c.toNat - 48 < 10 := by omega
  refine ⟨⟨c.toNat - 48, hlt⟩, Char.toNat_inj.mp ?_⟩
  rw [Nat.toNat_digitChar_of_lt_ten hlt, Nat.add_sub_cancel' h.1]

theorem exists_spelled {ds : List Char} (h : ∀ c ∈ ds, isDigit c = true) :
    ∃ digits, ds = spelled digits := by
  induction ds with
  | nil => exact ⟨[], rfl⟩
  | cons c ds ih =>
    obtain ⟨hc, hds⟩ := List.forall_mem_cons.mp h
    obtain ⟨d, rfl⟩ := exists_digitChar hc
    obtain ⟨digits, rfl⟩ := ih hds
    exact ⟨d :: digits, rfl⟩

theorem spelled_append (whole fraction : List (Fin 10)) :
    spelled (whole ++ fraction) = spelled whole ++ spelled fraction :=
  List.map_append

theorem spelled_eq_nil_iff {digits : List (Fin 10)} : spelled digits = [] ↔ digits = [] :=
  List.map_eq_nil_iff

theorem digitsValue_spelled (digits : List (Fin 10)) :
    digitsValue (spelled digits) = worth digits := by
  have hvalue : ∀ d : Fin 10, Json.digitValue (Nat.digitChar d.val) = d.val := by decide
  induction digits using List.reverseRecOn with
  | nil => rfl
  | append_singleton digits d ih =>
    rw [digitsValue] at ih
    rw [digitsValue, spelled_append, List.foldl_append, ih]
    simp [spelled, worth, hvalue, Nat.ofDigits_cons]
    omega

/-! ### Reading takes a whole number -/

variable {negative : Bool} {sign cs digits power : List Char} {whole fraction : List (Fin 10)}
  {exponent : Int}

theorem not_sign_of_isDigit {c : Char} (h : isDigit c = true) : c ≠ '-' ∧ c ≠ '+' := by
  constructor <;> rintro rfl <;> exact absurd h (by decide)

theorem readSign_append (hsign : SignText negative sign)
    (hrest : ∀ c, cs.head? = some c → c ≠ '-' ∧ c ≠ '+') :
    readSign (sign ++ cs) = (negative, cs) := by
  cases hsign with
  | minus => rfl
  | plus => rfl
  | none =>
    rw [List.nil_append]
    unfold readSign
    split
    · exact absurd rfl (hrest '-' rfl).1
    · exact absurd rfl (hrest '+' rfl).2
    · rfl

theorem readPower_append {digits : List (Fin 10)} (hsign : SignText negative sign)
    (hne : digits ≠ []) : readPower (sign ++ spelled digits) =
      some (if negative then -(worth digits : Int) else worth digits) := by
  have hdigit := @isDigit_of_mem_spelled digits
  have hrest : ∀ c, (spelled digits).head? = some c → c ≠ '-' ∧ c ≠ '+' := fun c hc =>
    not_sign_of_isDigit (hdigit c (List.mem_of_head? hc))
  have hall : (spelled digits).all isDigit = true := List.all_eq_true.mpr hdigit
  simp [readPower, readSign_append hsign hrest, spelled_eq_nil_iff, hne, hall, digitsValue_spelled]

theorem ExponentText.readExponent_eq (h : ExponentText exponent power) :
    readExponent power = some exponent := by
  cases h with
  | absent => rfl
  | present he hsign hne =>
    rw [readExponent, if_pos (by simpa using he), readPower_append hsign hne]

theorem ExponentText.head (h : ExponentText exponent power) :
    ∀ c, power.head? = some c → isDigit c = false ∧ c ≠ '.' := by
  intro c hc
  cases h with
  | absent => cases hc
  | present he _ _ =>
    obtain rfl : _ = c := by simpa using hc
    rcases he with rfl | rfl <;> decide

theorem DigitsText.ne_nil (h : DigitsText whole fraction digits) :
    whole ≠ [] ∨ fraction ≠ [] := by
  cases h with
  | whole hne => exact .inl hne
  | pointed hne => exact hne

theorem DigitsText.head (h : DigitsText whole fraction digits) :
    ∀ c, (digits ++ power).head? = some c → c ≠ '-' ∧ c ≠ '+' := by
  have hdigit : ∀ rest : List Char, whole ≠ [] →
      ∀ c, (spelled whole ++ rest).head? = some c → c ≠ '-' ∧ c ≠ '+' := by
    intro rest hne c hc
    obtain ⟨d, more, rfl⟩ := List.exists_cons_of_ne_nil hne
    obtain rfl : Nat.digitChar d.val = c := by simpa [spelled] using hc
    exact not_sign_of_isDigit (@isDigit_of_mem_spelled (d :: more) _ List.mem_cons_self)
  cases h with
  | whole hne => exact hdigit power hne
  | pointed hne =>
    intro c hc
    by_cases hempty : whole = []
    · obtain rfl : '.' = c := by simpa [hempty, spelled] using hc
      decide
    · rw [List.append_assoc] at hc
      exact hdigit _ hempty c hc

/-- The digits before a point and behind it are found where no other digit follows them. -/
theorem DigitsText.read_append (h : DigitsText whole fraction digits)
    (hpower : ∀ c, power.head? = some c → isDigit c = false ∧ c ≠ '.') :
    (digits ++ power).takeWhile isDigit = spelled whole ∧
      readFraction ((digits ++ power).dropWhile isDigit) = (spelled fraction, power) := by
  have hends : ∀ c, power.head? = some c → isDigit c = false := fun c hc => (hpower c hc).1
  cases h with
  | whole hne =>
    rw [Json.Numeral.takeWhile_digits isDigit_of_mem_spelled hends,
      Json.Numeral.dropWhile_digits isDigit_of_mem_spelled hends]
    refine ⟨rfl, ?_⟩
    unfold readFraction
    split
    · exact absurd rfl (hpower '.' rfl).2
    · rfl
  | pointed hne =>
    have hpoint : ∀ c, ('.' :: (spelled fraction ++ power)).head? = some c →
        isDigit c = false := by
      intro c hc
      obtain rfl : '.' = c := by simpa using hc
      decide
    rw [List.append_assoc, List.cons_append,
      Json.Numeral.takeWhile_digits isDigit_of_mem_spelled hpoint,
      Json.Numeral.dropWhile_digits isDigit_of_mem_spelled hpoint, readFraction,
      Json.Numeral.takeWhile_digits isDigit_of_mem_spelled hends,
      Json.Numeral.dropWhile_digits isDigit_of_mem_spelled hends]
    exact ⟨rfl, rfl⟩

theorem NumberText.readNumber_eq {n : Nat} (h : NumberText negative n exponent cs) :
    readNumber cs = Binary64.ofDecimal negative n exponent := by
  obtain ⟨hsign, hdigits, hpower⟩ := h
  obtain ⟨hwhole, hfraction⟩ := hdigits.read_append hpower.head
  have hne := hdigits.ne_nil
  simp only [readNumber, readSign_append hsign hdigits.head, hwhole, hfraction,
    hpower.readExponent_eq, ← spelled_append, digitsValue_spelled]
  rw [if_neg (by simpa [spelled_eq_nil_iff, or_iff_not_imp_left] using hne)]
  simp [spelled]

/-! ### Nothing else is read -/

theorem exists_sign (cs : List Char) :
    ∃ sign, SignText (readSign cs).1 sign ∧ cs = sign ++ (readSign cs).2 := by
  unfold readSign
  split
  · exact ⟨_, .minus, rfl⟩
  · exact ⟨_, .plus, rfl⟩
  · exact ⟨_, .none, rfl⟩

theorem exists_power (h : readPower cs = some exponent) :
    ∃ negative sign digits, SignText negative sign ∧ digits ≠ [] ∧ cs = sign ++ spelled digits ∧
      exponent = if negative then -(worth digits : Int) else worth digits := by
  obtain ⟨sign, hsign, hcs⟩ := exists_sign cs
  rw [readPower] at h
  generalize readSign cs = read at *
  obtain ⟨negative, ds⟩ := read
  dsimp only at h hsign hcs
  split at h
  · cases h
  · rename_i hread
    obtain ⟨hne, hall⟩ : ds ≠ [] ∧ ∀ c ∈ ds, isDigit c = true := by simpa using hread
    obtain ⟨digits, rfl⟩ := exists_spelled hall
    rw [digitsValue_spelled] at h
    exact ⟨negative, sign, digits, hsign, mt spelled_eq_nil_iff.mpr hne, hcs,
      (Option.some.inj h).symm⟩

theorem exponentText_of_read (h : readExponent cs = some exponent) : ExponentText exponent cs := by
  cases cs with
  | nil =>
    obtain rfl : 0 = exponent := Option.some.inj h
    exact .absent
  | cons e rest =>
    rw [readExponent] at h
    split at h
    · rename_i he
      obtain ⟨negative, sign, digits, hsign, hne, rfl, rfl⟩ := exists_power h
      exact .present (by simpa using he) hsign hne
    · cases h

theorem exists_digits (cs : List Char) :
    ∃ whole fraction, cs.takeWhile isDigit = spelled whole ∧
      (readFraction (cs.dropWhile isDigit)).1 = spelled fraction ∧
      (whole ≠ [] ∨ fraction ≠ [] → ∃ digits, DigitsText whole fraction digits ∧
        cs = digits ++ (readFraction (cs.dropWhile isDigit)).2) := by
  have hsplit := cs.takeWhile_append_dropWhile (p := isDigit)
  obtain ⟨whole, hwhole⟩ := exists_spelled (@Json.Numeral.takeWhile_all cs)
  rw [hwhole] at hsplit
  rw [hwhole]
  generalize cs.dropWhile isDigit = rest at *
  unfold readFraction
  split
  · rename_i behind
    obtain ⟨fraction, hfraction⟩ := exists_spelled (@Json.Numeral.takeWhile_all behind)
    have hbehind := behind.takeWhile_append_dropWhile (p := isDigit)
    rw [hfraction] at hbehind
    refine ⟨whole, fraction, rfl, hfraction, fun hne => ⟨_, .pointed hne, ?_⟩⟩
    rw [List.append_assoc, List.cons_append, hbehind, hsplit]
  · refine ⟨whole, [], rfl, rfl, fun hne => ⟨_, .whole (by simpa using hne), hsplit.symm⟩⟩

theorem numberText_of_read {x : Binary64} (h : readNumber cs = some x) :
    ∃ negative n exponent, NumberText negative n exponent cs ∧
      Binary64.ofDecimal negative n exponent = some x := by
  obtain ⟨sign, hsign, hcs⟩ := exists_sign cs
  rw [readNumber] at h
  generalize readSign cs = read at *
  obtain ⟨negative, rest⟩ := read
  dsimp only at h hsign hcs
  obtain ⟨whole, fraction, hwhole, hfraction, hdigits⟩ := exists_digits rest
  generalize readFraction (rest.dropWhile isDigit) = read at *
  obtain ⟨ds, power⟩ := read
  dsimp only at h hfraction hdigits
  rw [hwhole, hfraction] at h
  split at h
  · cases h
  rename_i hread
  obtain ⟨exponent, hpower, hvalue⟩ := Option.bind_eq_some_iff.mp h
  obtain ⟨digits, htext, rfl⟩ := hdigits (by
    simpa [spelled_eq_nil_iff, or_iff_not_imp_left] using hread)
  subst hcs
  refine ⟨negative, _, _, .intro hsign htext (exponentText_of_read hpower), ?_⟩
  rw [← spelled_append, digitsValue_spelled, spelled, List.length_map] at hvalue
  exact hvalue

/-! ### The number of a text -/

theorem numberOf_integer {n : Nat} (hn : n < Nat.pow 2 63) :
    numberOf ⟨negative, n * unitsPerOne⟩ = .integer (if negative then -(n : Int) else n) := by
  have habs : (if negative then -(n : Int) else n).natAbs = n := by
    cases negative <;> simp
  rw [numberOf, Decimal.toInt?_units]
  dsimp only
  rw [habs, integerLimit, if_pos hn]

theorem numberOf_float {units : Nat} (h : ∀ n < Nat.pow 2 63, units ≠ n * unitsPerOne) :
    numberOf ⟨negative, units⟩ = .float ⟨negative, units⟩ := by
  by_cases hwhole : units % unitsPerOne = 0
  · obtain ⟨n, hunits⟩ := Nat.dvd_of_mod_eq_zero hwhole
    rw [Nat.mul_comm] at hunits
    have habs : (if negative then -(n : Int) else n).natAbs = n := by
      cases negative <;> simp
    rw [hunits, numberOf, Decimal.toInt?_units]
    dsimp only
    rw [habs, integerLimit, if_neg fun hn => h n hn hunits]
  · simp [numberOf, Binary64.toInt?, hwhole]

theorem units_lt_limit {n : Nat} (hn : n < Nat.pow 2 63) : n * unitsPerOne < unitsLimit := by
  obtain ⟨e, hlarge, -, he⟩ := Decimal.unitsLimit_eq
  have hlt : Nat.pow 2 63 < Nat.pow 2 e := Nat.pow_lt_pow_right (by decide) (by omega)
  rw [he]
  exact Nat.mul_lt_mul_of_pos_right (hn.trans hlt) Decimal.unitsPerOne_pos

theorem number?_of_text {text : String} {core : List Char} {n units : Nat}
    (htrimmed : Trimmed text.toList core) (htext : NumberText negative n exponent core)
    (hnearest : NearestUnits n exponent units) (hfinite : units < unitsLimit) :
    number? text = some (numberOf ⟨negative, units⟩) := by
  have hdecimal : Binary64.ofDecimal negative n exponent = some ⟨negative, units⟩ :=
    Decimal.ofDecimal_eq_some_iff.mpr ⟨units, hnearest, hfinite, rfl⟩
  rw [number?, ← Text.trimmed_iff.mp htrimmed, htext.readNumber_eq, hdecimal, Option.map_some]

/-- The number that is read is the number of the text. -/
theorem number?_eq_some_iff {text : String} {n : Json.Number} :
    number? text = some n ↔ Denotes text n := by
  constructor
  · intro h
    obtain ⟨x, hread, rfl⟩ := Option.map_eq_some_iff.mp h
    obtain ⟨negative, digits, exponent, htext, hdecimal⟩ := numberText_of_read hread
    obtain ⟨units, hnearest, hfinite, rfl⟩ := Decimal.ofDecimal_eq_some_iff.mp hdecimal
    have htrimmed := Text.trimmed_trimChars text.toList
    by_cases hinteger : ∃ n < Nat.pow 2 63, units = n * unitsPerOne
    · obtain ⟨n, hn, hunits⟩ := hinteger
      rw [hunits] at hnearest
      rw [hunits, numberOf_integer hn]
      exact .integer htrimmed htext hnearest hn
    · have hother : ∀ n < Nat.pow 2 63, units ≠ n * unitsPerOne :=
        fun n hn heq => hinteger ⟨n, hn, heq⟩
      rw [numberOf_float hother]
      exact .float htrimmed htext hnearest hfinite hother
  · intro h
    cases h with
    | integer htrimmed htext hnearest hlimit =>
      rw [number?_of_text htrimmed htext hnearest (units_lt_limit hlimit), numberOf_integer hlimit]
    | float htrimmed htext hnearest hfinite hother =>
      rw [number?_of_text htrimmed htext hnearest hfinite, numberOf_float hother]

theorem number?_eq_none_iff {text : String} :
    number? text = none ↔ ∀ n, ¬ Denotes text n := by
  rw [Option.eq_none_iff_forall_ne_some]
  exact forall_congr' fun n => not_congr number?_eq_some_iff

/-! ## Items -/

/-- The pieces of a text between its commas, each without the blanks around it. -/
inductive Itemized : List Char → List String → Prop
  | last {piece : List Char} {item : String} (hpiece : ',' ∉ piece)
    (hitem : Trimmed piece item.toList) : Itemized piece [item]
  | more {piece rest : List Char} {item : String} {items : List String} (hpiece : ',' ∉ piece)
    (hitem : Trimmed piece item.toList) (hrest : Itemized rest items) :
    Itemized (piece ++ ',' :: rest) (item :: items)

theorem Itemized.items_eq {text : String} {list : List String} (h : Itemized text.toList list) :
    items text = list := by
  have hitem : ∀ {piece : List Char} {item : String}, Trimmed piece item.toList →
      String.ofList (Text.trimChars piece) = item := by
    intro piece item h
    rw [← Text.trimmed_iff.mp h, String.ofList_toList]
  rw [items]
  generalize text.toList = cs at h
  induction h with
  | last hpiece htrimmed =>
    rw [Text.splitOn_of_not_mem hpiece, List.map_singleton, hitem htrimmed]
  | more hpiece htrimmed _ ih =>
    rw [Text.splitOn_append hpiece, List.map_cons, hitem htrimmed, ih]

theorem itemized_items (text : String) : Itemized text.toList (items text) := by
  have hitem : ∀ piece : List Char,
      Trimmed piece (String.ofList (Text.trimChars piece)).toList := by
    intro piece
    rw [String.toList_ofList]
    exact Text.trimmed_trimChars piece
  rw [items]
  generalize hcs : text.toList = cs
  clear hcs
  induction hlength : cs.length using Nat.strong_induction_on generalizing cs with
  | _ length ih =>
    by_cases hcomma : ',' ∈ cs
    · obtain ⟨piece, rest, rfl, hpiece⟩ := List.eq_append_cons_of_mem hcomma
      rw [Text.splitOn_append hpiece]
      refine .more hpiece (hitem piece) (ih rest.length ?_ rest rfl)
      rw [← hlength, List.length_append, List.length_cons]
      omega
    · rw [Text.splitOn_of_not_mem hcomma]
      exact .last hcomma (hitem cs)

/-! ## Truth -/

/-- The word `true`, each letter small or capital. -/
def SaysTrue (text : String) : Prop :=
  List.Forall₂ (fun c (letter : Char × Char) => c = letter.1 ∨ c = letter.2) text.toList
    [('t', 'T'), ('r', 'R'), ('u', 'U'), ('e', 'E')]

theorem isTrue_iff {text : String} : isTrue text = true ↔ SaysTrue text := by
  rw [isTrue, decide_eq_true_iff, ← String.toList_inj, Text.asciiLowercase, String.toList_ofList]
  exact @Text.map_asciiLower_eq_letters_iff text.toList
    [('t', 'T'), ('r', 'R'), ('u', 'U'), ('e', 'E')] (by simp)

/-! ## Values -/

/-- What the text of an argument means under a type. What is no number counts as zero. -/
inductive Means : FieldType → String → Value → Prop
  | string (text : String) : Means .string text (.string text)
  | object (text : String) : Means .object text (.string text)
  | other (name text : String) : Means (.other name) text (.string text)
  | number {text : String} {n : Json.Number} (h : Denotes text n) : Means .number text (.number n)
  | noNumber {text : String} (h : ∀ n, ¬ Denotes text n) : Means .number text (.number (.integer 0))
  | yes {text : String} (h : SaysTrue text) : Means .boolean text (.bool true)
  | no {text : String} (h : ¬ SaysTrue text) : Means .boolean text (.bool false)
  | array {text : String} {items : List String} (h : Itemized text.toList items) :
    Means .array text (.strings items)

/-- The value of a text under a type. -/
def meaning (type : FieldType) (text : String) : Value :=
  match type with
  | .number => .number ((number? text).getD (.integer 0))
  | .boolean => .bool (isTrue text)
  | .array => .strings (items text)
  | .string | .object | .other _ => .string text

theorem means_iff {type : FieldType} {text : String} {v : Value} :
    Means type text v ↔ v = meaning type text := by
  constructor
  · intro h
    cases h with
    | string | object | other => rfl
    | number h => rw [meaning, number?_eq_some_iff.mpr h, Option.getD_some]
    | noNumber h => rw [meaning, number?_eq_none_iff.mpr h, Option.getD_none]
    | yes h => rw [meaning, isTrue_iff.mpr h]
    | no h => rw [meaning, Bool.eq_false_iff.mpr (mt isTrue_iff.mp h)]
    | array h => rw [meaning, h.items_eq]
  · rintro rfl
    cases type with
    | string => exact .string text
    | object => exact .object text
    | other name => exact .other name text
    | number =>
      cases h : number? text with
      | some n =>
        rw [meaning, h]
        exact .number (number?_eq_some_iff.mp h)
      | none =>
        rw [meaning, h]
        exact .noNumber (number?_eq_none_iff.mp h)
    | boolean =>
      cases h : isTrue text with
      | true =>
        rw [meaning, h]
        exact .yes (isTrue_iff.mp h)
      | false =>
        rw [meaning, h]
        exact .no fun hwords => Bool.false_ne_true (h.symm.trans (isTrue_iff.mpr hwords))
    | array => exact .array (itemized_items text)

/-- Every text means one thing under a type. -/
theorem existsUnique_means (type : FieldType) (text : String) : ∃! v, Means type text v :=
  ⟨meaning type text, means_iff.mpr rfl, fun _ h => means_iff.mp h⟩

/-- A strict reading asks for a number and finds none. -/
def NotNumber (strict : Bool) (type : FieldType) (text : String) : Prop :=
  strict = true ∧ type = .number ∧ ∀ n, ¬ Denotes text n

instance (strict : Bool) (type : FieldType) (text : String) :
    Decidable (NotNumber strict type text) :=
  decidable_of_iff (strict = true ∧ type = .number ∧ number? text = none) <| by
    rw [NotNumber, number?_eq_none_iff]

theorem value_eq (strict : Bool) (name : String) (type : FieldType) (text : String) :
    value strict name type text = if NotNumber strict type text then
      .error (.invalidNumber name text) else .ok (meaning type text) := by
  cases type with
  | number =>
    cases h : number? text with
    | some n =>
      have hnumber : ¬ NotNumber strict .number text := fun hnot =>
        hnot.2.2 n (number?_eq_some_iff.mp h)
      simp only [value, meaning, h, if_neg hnumber, Option.getD_some]
    | none =>
      have hnumber : NotNumber strict .number text ↔ strict = true := by
        simp [NotNumber, number?_eq_none_iff.mp h]
      simp only [value, meaning, h, hnumber, Option.getD_none, Value.ofNat]
      rfl
  | _ => simp [value, NotNumber, meaning]

end Agentry.Argument
