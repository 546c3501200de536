import Agentry.Json.Number
/-!
# Numerals in a text

A numeral is a sign, a whole part without needless zeros, a fraction and an exponent part. Reading
takes the longest numeral at the front of a text: it accepts what the grammar allows and, when no
character follows that could go on with it, all of it.
-/
namespace Agentry.Json.Numeral

/-- Whether no character at the front of a text could belong to a numeral before it. -/
def Ends (rest : List Char) : Prop :=
  ∀ c, rest.head? = some c → isDigit c = false ∧ c ≠ '.' ∧ c ≠ 'e' ∧ c ≠ 'E'

inductive WholeText : List Char → Prop where
  | zero : WholeText ['0']
  | digits {c : Char} {ds : List Char} :
    c ≠ '0' → isDigit c = true → (∀ d ∈ ds, isDigit d = true) → WholeText (c :: ds)

inductive FractionText : Option (List Char) → List Char → Prop where
  | none : FractionText none []
  | digits {ds : List Char} :
    ds ≠ [] → (∀ d ∈ ds, isDigit d = true) → FractionText (some ds) ('.' :: ds)

/-- The sign of an exponent. A plus may be left out. -/
inductive SignText : Bool → List Char → Prop where
  | minus : SignText true ['-']
  | plus : SignText false ['+']
  | none : SignText false []

inductive PowerText : Option Power → List Char → Prop where
  | none : PowerText none []
  | some {e : Char} {negative : Bool} {sign ds : List Char} :
    e = 'e' ∨ e = 'E' → SignText negative sign → ds ≠ [] → (∀ d ∈ ds, isDigit d = true) →
      PowerText (some ⟨negative, ds⟩) (e :: (sign ++ ds))

inductive NumeralText : Numeral → List Char → Prop where
  | positive {whole fraction power : List Char} {f : Option (List Char)} {p : Option Power} :
    WholeText whole → FractionText f fraction → PowerText p power →
      NumeralText ⟨false, whole, f, p⟩ (whole ++ (fraction ++ power))
  | negative {whole fraction power : List Char} {f : Option (List Char)} {p : Option Power} :
    WholeText whole → FractionText f fraction → PowerText p power →
      NumeralText ⟨true, whole, f, p⟩ ('-' :: (whole ++ (fraction ++ power)))

/-! ## Digits -/

theorem takeWhile_digits {ds rest : List Char} (hd : ∀ d ∈ ds, isDigit d = true)
    (hr : ∀ c, rest.head? = some c → isDigit c = false) :
    (ds ++ rest).takeWhile isDigit = ds := by
  rw [List.takeWhile_append_of_pos hd]
  cases rest with
  | nil => simp
  | cons c cs => simp [hr c rfl]

theorem dropWhile_digits {ds rest : List Char} (hd : ∀ d ∈ ds, isDigit d = true)
    (hr : ∀ c, rest.head? = some c → isDigit c = false) :
    (ds ++ rest).dropWhile isDigit = rest := by
  rw [List.dropWhile_append_of_pos hd]
  cases rest with
  | nil => simp
  | cons c cs => simp [hr c rfl]

theorem takeWhile_all {cs : List Char} : ∀ d ∈ cs.takeWhile isDigit, isDigit d = true := by
  intro d hd
  exact List.all_eq_true.mp List.all_takeWhile d hd

/-! ## Reading accepts only numerals -/

theorem readWhole_text {cs whole rest : List Char} (h : readWhole cs = some (whole, rest)) :
    cs = whole ++ rest ∧ WholeText whole := by
  cases cs with
  | nil => cases h
  | cons c cs =>
    simp only [readWhole] at h
    split at h
    · rename_i hc
      split at h
      · cases h
      · obtain ⟨rfl, rfl⟩ : ['0'] = whole ∧ cs = rest := by simpa using h
        exact ⟨by rw [hc]; rfl, .zero⟩
    · rename_i hc
      split at h
      · rename_i hdigit
        obtain ⟨rfl, rfl⟩ : c :: cs.takeWhile isDigit = whole ∧ cs.dropWhile isDigit = rest := by
          simpa using h
        exact ⟨by simp, .digits hc hdigit takeWhile_all⟩
      · cases h

theorem readFraction_text {cs rest : List Char} {f : Option (List Char)}
    (h : readFraction cs = some (f, rest)) : ∃ t, cs = t ++ rest ∧ FractionText f t := by
  unfold readFraction at h
  split at h
  · rename_i digits
    split at h
    · cases h
    · rename_i hne
      obtain ⟨rfl, rfl⟩ :
          some (digits.takeWhile isDigit) = f ∧ digits.dropWhile isDigit = rest := by
        simpa using h
      exact ⟨_, by simp, .digits (by simpa using hne) takeWhile_all⟩
  · obtain ⟨rfl, rfl⟩ : none = f ∧ cs = rest := by simpa using h
    exact ⟨[], rfl, .none⟩

theorem readPowerDigits_text {cs rest : List Char} {negative : Bool} {p : Option Power}
    (h : readPowerDigits negative cs = some (p, rest)) :
    ∃ ds, cs = ds ++ rest ∧ p = some ⟨negative, ds⟩ ∧ ds ≠ [] ∧ ∀ d ∈ ds, isDigit d = true := by
  unfold readPowerDigits at h
  split at h
  · cases h
  · rename_i hne
    obtain ⟨rfl, rfl⟩ : some (Power.mk negative (cs.takeWhile isDigit)) = p ∧
        cs.dropWhile isDigit = rest := by simpa using h
    exact ⟨_, by simp, rfl, by simpa using hne, takeWhile_all⟩

theorem readPower_text {cs rest : List Char} {p : Option Power}
    (h : readPower cs = some (p, rest)) : ∃ t, cs = t ++ rest ∧ PowerText p t := by
  cases cs with
  | nil =>
    obtain ⟨rfl, rfl⟩ : none = p ∧ [] = rest := by simpa [readPower] using h
    exact ⟨[], rfl, .none⟩
  | cons c cs =>
    simp only [readPower, Bool.or_eq_true, decide_eq_true_eq] at h
    split at h
    · rename_i he
      have signed : ∀ {negative : Bool} {sign digits : List Char}, SignText negative sign →
          cs = sign ++ digits → readPowerDigits negative digits = some (p, rest) →
          ∃ t, c :: cs = t ++ rest ∧ PowerText p t := by
        intro negative sign digits hsign hcs hread
        obtain ⟨ds, rfl, rfl, hne, hall⟩ := readPowerDigits_text hread
        exact ⟨_, by simp [hcs], .some he hsign hne hall⟩
      split at h
      · exact signed .plus rfl h
      · exact signed .minus rfl h
      · exact signed .none rfl h
    · obtain ⟨rfl, rfl⟩ : none = p ∧ c :: cs = rest := by simpa using h
      exact ⟨[], rfl, .none⟩

theorem readUnsigned_text {cs rest : List Char} {negative : Bool} {n : Numeral}
    (h : readUnsigned negative cs = some (n, rest)) :
    ∃ whole fraction power f p, cs = whole ++ (fraction ++ power) ++ rest ∧
      n = ⟨negative, whole, f, p⟩ ∧ WholeText whole ∧ FractionText f fraction ∧
      PowerText p power := by
  simp only [readUnsigned, Option.bind_eq_bind, Option.bind_eq_some_iff, Option.pure_def,
    Option.some.injEq, Prod.exists, Prod.mk.injEq] at h
  obtain ⟨whole, r₁, hw, f, r₂, hf, p, r₃, hp, rfl, rfl⟩ := h
  obtain ⟨rfl, hwhole⟩ := readWhole_text hw
  obtain ⟨fraction, rfl, hfraction⟩ := readFraction_text hf
  obtain ⟨power, rfl, hpower⟩ := readPower_text hp
  exact ⟨whole, fraction, power, f, p, by simp, rfl, hwhole, hfraction, hpower⟩

theorem numeralText_of_read {cs rest : List Char} {n : Numeral} (h : read cs = some (n, rest)) :
    ∃ t, cs = t ++ rest ∧ NumeralText n t := by
  unfold read at h
  split at h
  · obtain ⟨whole, fraction, power, f, p, rfl, rfl, hw, hf, hp⟩ := readUnsigned_text h
    exact ⟨_, rfl, .negative hw hf hp⟩
  · obtain ⟨whole, fraction, power, f, p, rfl, rfl, hw, hf, hp⟩ := readUnsigned_text h
    exact ⟨_, rfl, .positive hw hf hp⟩

/-! ## Reading takes a whole numeral -/

theorem readWhole_append {whole rest : List Char} (h : WholeText whole)
    (hr : ∀ c, rest.head? = some c → isDigit c = false) :
    readWhole (whole ++ rest) = some (whole, rest) := by
  cases h with
  | zero =>
    cases rest with
    | nil => rfl
    | cons c cs => simp [readWhole, hr c rfl]
  | digits hc hdigit hds =>
    simp only [List.cons_append, readWhole, if_neg hc, hdigit, if_true,
      takeWhile_digits hds hr, dropWhile_digits hds hr]

theorem readFraction_append {fraction rest : List Char} {f : Option (List Char)}
    (h : FractionText f fraction)
    (hr : ∀ c, rest.head? = some c → isDigit c = false ∧ c ≠ '.') :
    readFraction (fraction ++ rest) = some (f, rest) := by
  cases h with
  | none =>
    rw [List.nil_append]
    unfold readFraction
    split
    · exact absurd rfl (hr _ rfl).2
    · rfl
  | digits hne hds =>
    have hdigit : ∀ c, rest.head? = some c → isDigit c = false := fun c hc => (hr c hc).1
    simp [readFraction, takeWhile_digits hds hdigit, dropWhile_digits hds hdigit, hne]

theorem readPower_append {power rest : List Char} {p : Option Power} (h : PowerText p power)
    (hr : Ends rest) : readPower (power ++ rest) = some (p, rest) := by
  cases h with
  | none =>
    cases rest with
    | nil => rfl
    | cons c cs =>
      obtain ⟨_, _, he, hE⟩ := hr c rfl
      simp [readPower, he, hE]
  | @some e negative sign ds he hsign hne hds =>
    have hdigit : ∀ c, rest.head? = some c → isDigit c = false := fun c hc => (hr c hc).1
    have hread : readPowerDigits negative (ds ++ rest) = some (some ⟨negative, ds⟩, rest) := by
      simp [readPowerDigits, takeWhile_digits hds hdigit, dropWhile_digits hds hdigit, hne]
    have hletter : (e = 'e' || e = 'E') = true := by simpa using he
    cases hsign with
    | minus => simpa [readPower, he] using hread
    | plus => simpa [readPower, he] using hread
    | none =>
      obtain ⟨d, more, rfl⟩ := List.exists_cons_of_ne_nil hne
      have hd := hds d List.mem_cons_self
      have hplus : d ≠ '+' := by
        rintro rfl
        exact absurd hd (by decide)
      have hminus : d ≠ '-' := by
        rintro rfl
        exact absurd hd (by decide)
      simp only [List.cons_append, List.nil_append, readPower, hletter, if_true]
      split
      · simp_all
      · simp_all
      · exact hread

theorem exists_cons_of_wholeText {whole : List Char} (h : WholeText whole) :
    ∃ c ds, whole = c :: ds ∧ isDigit c = true := by
  cases h with
  | zero => exact ⟨'0', [], rfl, by decide⟩
  | digits _ hdigit _ => exact ⟨_, _, rfl, hdigit⟩

theorem NumeralText.head {n : Numeral} {t : List Char} (h : NumeralText n t) :
    ∃ c cs, t = c :: cs ∧ (c = '-' ∨ isDigit c = true) := by
  cases h with
  | positive hw _ _ =>
    obtain ⟨c, ds, rfl, hdigit⟩ := exists_cons_of_wholeText hw
    exact ⟨c, _, rfl, Or.inr hdigit⟩
  | negative _ _ _ => exact ⟨'-', _, rfl, Or.inl rfl⟩

/-- The characters of which numerals are made. -/
def isNumeralChar (c : Char) : Bool :=
  isDigit c || c = '-' || c = '+' || c = '.' || c = 'e' || c = 'E'

theorem NumeralText.all_isNumeralChar {n : Numeral} {t : List Char} (h : NumeralText n t) :
    ∀ c ∈ t, isNumeralChar c = true := by
  have hdigit : ∀ {c}, isDigit c = true → isNumeralChar c = true := by
    intro c hc
    simp [isNumeralChar, hc]
  have hwhole : ∀ {w}, WholeText w → ∀ c ∈ w, isNumeralChar c = true := by
    intro w hw c hc
    cases hw with
    | zero =>
      obtain rfl : c = '0' := by simpa using hc
      decide
    | digits _ hd hds =>
      rcases List.mem_cons.mp hc with rfl | hc
      · exact hdigit hd
      · exact hdigit (hds c hc)
  have hfraction : ∀ {f t}, FractionText f t → ∀ c ∈ t, isNumeralChar c = true := by
    intro f t hf c hc
    cases hf with
    | none => cases hc
    | digits _ hds =>
      rcases List.mem_cons.mp hc with rfl | hc
      · decide
      · exact hdigit (hds c hc)
  have hpower : ∀ {p t}, PowerText p t → ∀ c ∈ t, isNumeralChar c = true := by
    intro p t hp c hc
    cases hp with
    | none => cases hc
    | some he hsign _ hds =>
      rcases List.mem_cons.mp hc with rfl | hc
      · rcases he with rfl | rfl <;> decide
      · rcases List.mem_append.mp hc with hc | hc
        · cases hsign with
          | none => cases hc
          | plus =>
            obtain rfl : c = '+' := by simpa using hc
            decide
          | minus =>
            obtain rfl : c = '-' := by simpa using hc
            decide
        · exact hdigit (hds c hc)
  intro c hc
  cases h with
  | positive hw hf hp =>
    rcases List.mem_append.mp hc with hc | hc
    · exact hwhole hw c hc
    · exact (List.mem_append.mp hc).elim (hfraction hf c) (hpower hp c)
  | negative hw hf hp =>
    rcases List.mem_cons.mp hc with rfl | hc
    · decide
    · rcases List.mem_append.mp hc with hc | hc
      · exact hwhole hw c hc
      · exact (List.mem_append.mp hc).elim (hfraction hf c) (hpower hp c)

theorem ne_of_sign_or_digit {c d : Char} (hc : c = '-' ∨ isDigit c = true) (hminus : d ≠ '-')
    (hdigit : isDigit d = false) : c ≠ d := by
  rintro rfl
  rcases hc with hc | hc
  · exact hminus hc
  · rw [hdigit] at hc
    cases hc

theorem head_append_of_powerText {power rest : List Char} {p : Option Power} (h : PowerText p power)
    (hr : Ends rest) :
    ∀ c, (power ++ rest).head? = some c → isDigit c = false ∧ c ≠ '.' := by
  intro c hc
  cases h with
  | none => exact ⟨(hr c hc).1, (hr c hc).2.1⟩
  | some he _ _ _ =>
    obtain rfl : _ = c := by simpa using hc
    rcases he with rfl | rfl <;> decide

theorem head_append_of_fractionText {fraction rest : List Char} {f : Option (List Char)}
    (h : FractionText f fraction) (hr : ∀ c, rest.head? = some c → isDigit c = false) :
    ∀ c, (fraction ++ rest).head? = some c → isDigit c = false := by
  intro c hc
  cases h with
  | none => exact hr c hc
  | digits _ _ =>
    obtain rfl : '.' = c := by simpa using hc
    decide

theorem readUnsigned_append (negative : Bool) {whole fraction power rest : List Char}
    {f : Option (List Char)} {p : Option Power} (hw : WholeText whole)
    (hf : FractionText f fraction) (hp : PowerText p power) (hr : Ends rest) :
    readUnsigned negative (whole ++ (fraction ++ power) ++ rest) =
      some (⟨negative, whole, f, p⟩, rest) := by
  have hpower := head_append_of_powerText hp hr
  have hfraction := head_append_of_fractionText hf fun c hc => (hpower c hc).1
  rw [List.append_assoc, List.append_assoc, readUnsigned, readWhole_append hw hfraction]
  simp [readFraction_append hf hpower, readPower_append hp hr]

theorem NumeralText.read_append {t rest : List Char} {n : Numeral} (h : NumeralText n t)
    (hr : Ends rest) : read (t ++ rest) = some (n, rest) := by
  cases h with
  | positive hw hf hp =>
    obtain ⟨c, ds, rfl, hdigit⟩ := exists_cons_of_wholeText hw
    have hminus : c ≠ '-' := by
      rintro rfl
      exact absurd hdigit (by decide)
    have hread := readUnsigned_append false hw hf hp hr
    simp only [List.cons_append] at hread ⊢
    rw [read]
    · exact hread
    · intro _ heq
      exact hminus (List.cons.inj heq).1
  | negative hw hf hp => exact readUnsigned_append true hw hf hp hr

end Agentry.Json.Numeral
