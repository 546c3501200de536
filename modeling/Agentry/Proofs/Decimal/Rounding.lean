import Agentry.Decimal.Binary64
import Mathlib.Data.Nat.Dist
/-!
# The nearest double

A quotient of natural numbers is rounded to the nearest number with 53 significant bits, and of two
equally near ones to the even one. There is one such number only. Counting a natural number in units
instead of ones changes nothing.
-/
namespace Agentry.Decimal

def Significant (n : Nat) : Prop :=
  ∃ digits exponent, digits < Nat.pow 2 53 ∧ n = digits * Nat.pow 2 exponent

/-- Of two neighbours that are equally near, the even one is a multiple of twice their distance. -/
structure Nearest (n m : Nat) : Prop where
  significant : Significant m
  closest : ∀ k, Significant k → Nat.dist m n ≤ Nat.dist k n
  even : ∀ k, Significant k → k ≠ m → Nat.dist k n = Nat.dist m n → 2 * Nat.dist k m ∣ m

/-- The same for a quotient `num / den`, which need not be a natural number. -/
structure NearestTo (num den m : Nat) : Prop where
  significant : Significant m
  closest : ∀ k, Significant k → Nat.dist (m * den) num ≤ Nat.dist (k * den) num
  even : ∀ k, Significant k → k ≠ m → Nat.dist (k * den) num = Nat.dist (m * den) num →
    2 * Nat.dist k m ∣ m

theorem two_pow_pos (e : Nat) : 0 < Nat.pow 2 e :=
  Nat.pow_pos (by decide)

theorem two_pow_add (d e : Nat) : Nat.pow 2 (d + e) = Nat.pow 2 d * Nat.pow 2 e :=
  Nat.pow_add 2 d e

theorem significant_of_le {n : Nat} (h : n ≤ Nat.pow 2 53) : Significant n := by
  by_cases hlt : n < Nat.pow 2 53
  · exact ⟨n, 0, hlt, (Nat.mul_one n).symm⟩
  · exact ⟨1, 53, by decide, by rw [Nat.one_mul]; omega⟩

/-! ## Multiples of a step -/

variable {n m k step : Nat}

theorem roundHalfEven_bounds (n : Nat) (hstep : 0 < step) :
    2 * (roundHalfEven n step * step) ≤ 2 * n + step ∧
      2 * n ≤ 2 * (roundHalfEven n step * step) + step ∧
      (2 * (roundHalfEven n step * step) = 2 * n + step ∨
        2 * n = 2 * (roundHalfEven n step * step) + step → roundHalfEven n step % 2 = 0) := by
  have hdiv := Nat.div_add_mod n step
  have hmod := Nat.mod_lt n hstep
  have hnext : (n / step + 1) * step = n / step * step + step := Nat.succ_mul _ _
  rw [Nat.mul_comm] at hdiv
  unfold roundHalfEven
  dsimp only
  split
  · omega
  split
  · omega
  split
  · omega
  · omega

/-- What is rounded to a step is nearest among all multiples of it. -/
theorem dist_roundHalfEven (n j : Nat) (hstep : 0 < step) :
    Nat.dist (roundHalfEven n step * step) n ≤ Nat.dist (j * step) n ∧
      (j * step ≠ roundHalfEven n step * step →
        Nat.dist (j * step) n = Nat.dist (roundHalfEven n step * step) n →
        2 * Nat.dist (j * step) (roundHalfEven n step * step) ∣ roundHalfEven n step * step) := by
  obtain ⟨hbelow, habove, heven⟩ := roundHalfEven_bounds n hstep
  generalize roundHalfEven n step = r at *
  have hgap : j * step = r * step ∨ j * step + step ≤ r * step ∨ r * step + step ≤ j * step := by
    rw [← Nat.succ_mul, ← Nat.succ_mul]
    rcases Nat.lt_trichotomy j r with h | h | h
    · exact .inr (.inl (Nat.mul_le_mul_right step h))
    · exact .inl (by rw [h])
    · exact .inr (.inr (Nat.mul_le_mul_right step h))
  constructor
  · simp only [Nat.dist]
    omega
  · intro hne heq
    simp only [Nat.dist] at heq ⊢
    have htie : r % 2 = 0 := heven (by omega)
    have hstep : j * step - r * step + (r * step - j * step) = step := by omega
    rw [hstep]
    exact Nat.mul_dvd_mul_right (Nat.dvd_of_mod_eq_zero htie) step

/-! ## Rounding to 53 bits -/

theorem roundTo53_eq (n : Nat) :
    roundTo53 n 1 = roundHalfEven n (Nat.pow 2 (lastBit n)) * Nat.pow 2 (lastBit n) := by
  simp only [roundTo53, Nat.div_one, Nat.one_mul]

theorem lt_significands (n : Nat) : n < Nat.pow 2 53 * Nat.pow 2 (lastBit n) := by
  have hlog : n < Nat.pow 2 (n.log2 + 1) := Nat.lt_log2_self
  have hle : Nat.pow 2 (n.log2 + 1) ≤ Nat.pow 2 (53 + lastBit n) :=
    Nat.pow_le_pow_right (by decide) (by rw [lastBit]; omega)
  exact (Nat.lt_of_lt_of_le hlog hle).trans_eq (two_pow_add ..)

/-- A number of 53 significant bits is a multiple of the step, or it is below the least number that
has this step, which is a multiple itself. -/
theorem multiple_or_below (hk : Significant k) (n : Nat) :
    (∃ j, k = j * Nat.pow 2 (lastBit n)) ∨
      k < Nat.pow 2 52 * Nat.pow 2 (lastBit n) ∧
        Nat.pow 2 52 * Nat.pow 2 (lastBit n) ≤ n := by
  obtain ⟨digits, exponent, hdigits, rfl⟩ := hk
  by_cases hle : lastBit n ≤ exponent
  · refine .inl ⟨digits * Nat.pow 2 (exponent - lastBit n), ?_⟩
    rw [Nat.mul_assoc, ← two_pow_add, Nat.sub_add_cancel hle]
  · right
    have hlog : n.log2 = 52 + lastBit n := by
      rw [lastBit] at hle ⊢
      omega
    rw [← two_pow_add]
    constructor
    · have hbelow : digits * Nat.pow 2 exponent < Nat.pow 2 (53 + exponent) := by
        rw [two_pow_add]
        exact Nat.mul_lt_mul_of_pos_right hdigits (two_pow_pos exponent)
      exact Nat.lt_of_lt_of_le hbelow (Nat.pow_le_pow_right (by decide) (by omega))
    · rw [← hlog]
      refine Nat.log2_self_le ?_
      rintro rfl
      simp [lastBit] at hle

variable {num den : Nat}

theorem significant_roundTo53 (num : Nat) (hden : 0 < den) : Significant (roundTo53 num den) := by
  have hlt := (Nat.div_lt_iff_lt_mul hden).mp (lt_significands (num / den))
  have hbound := (roundHalfEven_bounds num (Nat.mul_pos hden (two_pow_pos (lastBit (num / den))))).1
  rw [Nat.mul_assoc, Nat.mul_comm _ den] at hlt
  rw [roundTo53]
  generalize roundHalfEven num (den * Nat.pow 2 (lastBit (num / den))) = r at *
  have hr : r ≤ Nat.pow 2 53 := by
    by_contra hmore
    have := Nat.mul_le_mul_right (den * Nat.pow 2 (lastBit (num / den))) (Nat.lt_of_not_le hmore)
    rw [Nat.succ_mul] at this
    omega
  by_cases hcarry : r < Nat.pow 2 53
  · exact ⟨r, lastBit (num / den), hcarry, rfl⟩
  · obtain rfl : r = Nat.pow 2 53 := by omega
    exact ⟨1, 53 + lastBit (num / den), by decide, by rw [Nat.one_mul, two_pow_add]⟩

theorem nearestTo_roundTo53 (num : Nat) (hden : 0 < den) :
    NearestTo num den (roundTo53 num den) := by
  have hstep : 0 < den * Nat.pow 2 (lastBit (num / den)) := Nat.mul_pos hden (two_pow_pos _)
  have hscale : ∀ j, j * Nat.pow 2 (lastBit (num / den)) * den =
      j * (den * Nat.pow 2 (lastBit (num / den))) := by
    intro j
    rw [Nat.mul_assoc, Nat.mul_comm _ den]
  -- The least number with this step is nearer than one below it.
  have hleast : ∀ k, k < Nat.pow 2 52 * Nat.pow 2 (lastBit (num / den)) →
      Nat.pow 2 52 * Nat.pow 2 (lastBit (num / den)) ≤ num / den →
      Nat.dist (roundTo53 num den * den) num < Nat.dist (k * den) num := by
    intro k hbelow hle
    have hnear := (dist_roundHalfEven num (Nat.pow 2 52) hstep).1
    have hlt := Nat.mul_lt_mul_of_pos_right hbelow hden
    have hnum := (Nat.le_div_iff_mul_le hden).mp hle
    rw [← hscale, ← hscale] at hnear
    simp only [roundTo53, Nat.dist] at hnear ⊢
    omega
  refine ⟨significant_roundTo53 num hden, ?_, ?_⟩
  · intro k hk
    rcases multiple_or_below hk (num / den) with ⟨j, rfl⟩ | ⟨hbelow, hle⟩
    · simp only [roundTo53, hscale]
      exact (dist_roundHalfEven num j hstep).1
    · exact (hleast k hbelow hle).le
  · intro k hk hne heq
    rcases multiple_or_below hk (num / den) with ⟨j, rfl⟩ | ⟨hbelow, hle⟩
    · refine Nat.dvd_of_mul_dvd_mul_right hden ?_
      rw [Nat.mul_assoc, ← Nat.dist_mul_right]
      have hdistinct := mt (Nat.eq_of_mul_eq_mul_right hden) hne
      simp only [roundTo53, hscale] at heq hdistinct ⊢
      exact (dist_roundHalfEven num j hstep).2 hdistinct heq
    · exact absurd heq (hleast k hbelow hle).ne'

namespace NearestTo

theorem unique {m' : Nat} (h : NearestTo num den m) (h' : NearestTo num den m') : m = m' := by
  by_contra hne
  have heq := Nat.le_antisymm (h.closest m' h'.significant) (h'.closest m h.significant)
  have hdvd := h.even m' h'.significant (Ne.symm hne) heq.symm
  have hdvd' := h'.even m h.significant hne heq
  rw [Nat.dist_comm] at hdvd
  -- Both are multiples of twice their distance, and so is the distance then.
  have hdist : 2 * Nat.dist m m' ∣ Nat.dist m m' :=
    Nat.dvd_add (Nat.dvd_sub hdvd hdvd') (Nat.dvd_sub hdvd' hdvd)
  have hpos := Nat.dist_pos_of_ne hne
  have hle := Nat.le_of_dvd hpos hdist
  omega

theorem ge_of_significant (h : NearestTo num den m) (hden : 0 < den) (hk : Significant k)
    (hle : k * den ≤ num) : k ≤ m := by
  by_contra hlt
  have hclosest := h.closest k hk
  have hmul := Nat.mul_lt_mul_of_pos_right (Nat.lt_of_not_le hlt) hden
  simp only [Nat.dist] at hclosest
  omega

theorem eq_zero (h : NearestTo num den m) (hsmall : 2 * num < den) : m = 0 := by
  by_contra hm
  have hclosest := h.closest 0 (significant_of_le (Nat.zero_le _))
  have hmul := Nat.le_mul_of_pos_left den (Nat.pos_of_ne_zero hm)
  simp only [Nat.dist, Nat.zero_mul] at hclosest
  omega

theorem nearest (h : NearestTo n 1 m) : Nearest n m where
  significant := h.significant
  closest k hk := by simpa only [Nat.mul_one] using h.closest k hk
  even k hk hne heq := h.even k hk hne (by simpa only [Nat.mul_one] using heq)

end NearestTo

theorem nearest_roundTo53 (n : Nat) : Nearest n (roundTo53 n 1) :=
  (nearestTo_roundTo53 n Nat.one_pos).nearest

theorem Nearest.eq_iff (h : Nearest n m) : m = n ↔ Significant n := by
  constructor
  · rintro rfl
    exact h.significant
  · intro hn
    have hzero := h.closest n hn
    rw [Nat.dist_self] at hzero
    exact Nat.eq_of_dist_eq_zero (Nat.le_zero.mp hzero)

theorem Nearest.le_of_significant (h : Nearest n m) (hk : Significant k) (hle : n ≤ k) :
    m ≤ k := by
  have hclosest := h.closest k hk
  simp only [Nat.dist] at hclosest
  omega

/-! ## Units -/

theorem roundHalfEven_scale (a b : Nat) {c : Nat} (hc : 0 < c) :
    roundHalfEven (a * c) (b * c) = roundHalfEven a b := by
  have hlt : 2 * (a % b * c) < b * c ↔ 2 * (a % b) < b := by
    rw [← Nat.mul_assoc]
    exact Nat.mul_lt_mul_right hc
  have hgt : b * c < 2 * (a % b * c) ↔ b < 2 * (a % b) := by
    rw [← Nat.mul_assoc]
    exact Nat.mul_lt_mul_right hc
  simp only [roundHalfEven, Nat.mul_div_mul_right a b hc, Nat.mul_mod_mul_right, gt_iff_lt, hlt,
    hgt]

theorem log2_mul_two_pow (hn : n ≠ 0) (e : Nat) : (n * Nat.pow 2 e).log2 = n.log2 + e := by
  have hlow : Nat.pow 2 n.log2 ≤ n := Nat.log2_self_le hn
  have hhigh : n < Nat.pow 2 (n.log2 + 1) := Nat.lt_log2_self
  refine (Nat.log2_eq_iff (Nat.mul_ne_zero hn (two_pow_pos e).ne')).mpr ⟨?_, ?_⟩
  · exact (two_pow_add ..).trans_le (Nat.mul_le_mul_right _ hlow)
  · rw [Nat.add_right_comm]
    exact (Nat.mul_lt_mul_of_pos_right hhigh (two_pow_pos e)).trans_eq (two_pow_add ..).symm

/-- Rounding looks at the leading bits alone. -/
theorem roundTo53_mul_two_pow (n : Nat) {e : Nat} (he : 52 ≤ e) :
    roundTo53 (n * Nat.pow 2 e) 1 = roundTo53 n 1 * Nat.pow 2 e := by
  by_cases hn : n = 0
  · subst hn
    rw [Nat.zero_mul, roundTo53_eq, roundHalfEven]
    simp
  have hlog := log2_mul_two_pow hn e
  rw [roundTo53_eq, roundTo53_eq]
  by_cases hlarge : 52 ≤ n.log2
  · have hlast : lastBit (n * Nat.pow 2 e) = lastBit n + e := by
      rw [lastBit, lastBit, hlog]
      omega
    rw [hlast, two_pow_add, roundHalfEven_scale _ _ (two_pow_pos e), Nat.mul_assoc]
  · -- A number of at most 52 bits is itself, and times the power it is a multiple of its step.
    have hsplit :
        Nat.pow 2 e = Nat.pow 2 (52 - n.log2) * Nat.pow 2 (lastBit (n * Nat.pow 2 e)) := by
      have hexponent : e = 52 - n.log2 + lastBit (n * Nat.pow 2 e) := by
        rw [lastBit, hlog]
        omega
      rw [← two_pow_add, ← hexponent]
    have hlast : lastBit n = 0 := by
      rw [lastBit]
      omega
    have hone : Nat.pow 2 0 = 1 := rfl
    rw [hlast, hone, roundHalfEven_one, Nat.mul_one]
    generalize lastBit (n * Nat.pow 2 e) = last at hsplit
    rw [hsplit, ← Nat.mul_assoc, roundHalfEven_mul _ (two_pow_pos last)]

/-! ## The double nearest to a natural number -/

theorem unitsPerOne_eq : ∃ e, 52 ≤ e ∧ e ≤ 1074 ∧ unitsPerOne = Nat.pow 2 e :=
  ⟨1074, by decide, by decide, by decide +kernel⟩

theorem unitsPerOne_pos : 0 < unitsPerOne := by
  obtain ⟨e, -, -, he⟩ := unitsPerOne_eq
  rw [he]
  exact two_pow_pos e

theorem unitsLimit_eq : ∃ e, 64 < e ∧ e ≤ 1024 ∧ unitsLimit = Nat.pow 2 e * unitsPerOne :=
  ⟨1024, by decide, by decide, by decide +kernel⟩

theorem ofQuotient_one (negative : Bool) {n : Nat} (hn : n < Nat.pow 2 64) :
    Binary64.ofQuotient negative n 1 = some ⟨negative, roundTo53 n 1 * unitsPerOne⟩ := by
  have hround : roundTo53 (n * unitsPerOne) 1 = roundTo53 n 1 * unitsPerOne := by
    obtain ⟨e, hle, -, he⟩ := unitsPerOne_eq
    rw [he]
    exact roundTo53_mul_two_pow n hle
  have hlimit : roundTo53 n 1 * unitsPerOne < unitsLimit := by
    have hle : roundTo53 n 1 ≤ Nat.pow 2 64 :=
      (nearest_roundTo53 n).le_of_significant ⟨1, 64, by decide, (Nat.one_mul _).symm⟩ hn.le
    obtain ⟨e, hlarge, -, he⟩ := unitsLimit_eq
    have hlt : Nat.pow 2 64 < Nat.pow 2 e := Nat.pow_lt_pow_right (by decide) hlarge
    rw [he]
    exact Nat.mul_lt_mul_of_pos_right (Nat.lt_of_le_of_lt hle hlt) unitsPerOne_pos
  rw [Binary64.ofQuotient]
  simp only [hround, hlimit, if_true]

theorem toInt?_units (negative : Bool) (m : Nat) :
    Binary64.toInt? ⟨negative, m * unitsPerOne⟩ = some (if negative then -(m : Int) else m) := by
  simp [Binary64.toInt?, Nat.mul_div_cancel m unitsPerOne_pos]

/-! ## The double nearest to a decimal number -/

/-- The number of units that is nearest to `digits * 10^exponent`. -/
def NearestUnits (digits : Nat) (exponent : Int) (m : Nat) : Prop :=
  NearestTo (digits * Nat.pow 10 exponent.toNat * unitsPerOne) (Nat.pow 10 (-exponent).toNat) m

theorem ten_pow_pos (e : Nat) : 0 < Nat.pow 10 e :=
  Nat.pow_pos (by decide)

theorem ten_pow_zero : Nat.pow 10 0 = 1 := rfl

theorem two_pow_le_ten_pow {a e : Nat} (h : a ≤ 3 * e) : Nat.pow 2 a ≤ Nat.pow 10 e :=
  calc Nat.pow 2 a ≤ Nat.pow 2 (3 * e) := Nat.pow_le_pow_right (by decide) h
    _ = Nat.pow 8 e := Nat.pow_mul 2 3 e
    _ ≤ Nat.pow 10 e := Nat.pow_le_pow_left (by decide) e

theorem unitsLimit_pos : 0 < unitsLimit := by
  obtain ⟨e, -, -, he⟩ := unitsLimit_eq
  rw [he]
  exact Nat.mul_pos (two_pow_pos e) unitsPerOne_pos

theorem significant_unitsLimit : Significant unitsLimit := by
  obtain ⟨a, -, -, ha⟩ := unitsLimit_eq
  obtain ⟨b, -, -, hb⟩ := unitsPerOne_eq
  exact ⟨1, a + b, by decide, by rw [ha, hb, Nat.one_mul, two_pow_add]⟩

namespace NearestUnits

variable {digits : Nat} {exponent : Int}

theorem exists_nearest (digits : Nat) (exponent : Int) : ∃ m, NearestUnits digits exponent m :=
  ⟨_, nearestTo_roundTo53 _ (ten_pow_pos _)⟩

theorem eq_zero_of_small (h : NearestUnits digits exponent m)
    (hsmall : digits = 0 ∨ exponent < 0 ∧ digits.log2 + 3 * exponent < -1200) : m = 0 := by
  refine NearestTo.eq_zero h ?_
  rcases hsmall with rfl | ⟨hnegative, hsmall⟩
  · rw [Nat.zero_mul, Nat.zero_mul]
    exact ten_pow_pos _
  have hnum : exponent.toNat = 0 := by omega
  obtain ⟨a, -, ha, hone⟩ := unitsPerOne_eq
  have hdigits : digits < Nat.pow 2 (digits.log2 + 1) := Nat.lt_log2_self
  rw [hnum, ten_pow_zero, Nat.mul_one]
  calc 2 * (digits * unitsPerOne) = digits * Nat.pow 2 (1 + a) := by
        rw [hone, two_pow_add, Nat.mul_left_comm]
    _ < Nat.pow 2 (digits.log2 + 1) * Nat.pow 2 (1 + a) :=
        Nat.mul_lt_mul_of_pos_right hdigits (two_pow_pos _)
    _ = Nat.pow 2 (digits.log2 + 1 + (1 + a)) := (two_pow_add ..).symm
    _ ≤ Nat.pow 10 (-exponent).toNat := two_pow_le_ten_pow (by omega)

theorem unitsLimit_le_of_large (h : NearestUnits digits exponent m) (hdigits : digits ≠ 0)
    (hlarge : 400 < exponent) : unitsLimit ≤ m := by
  refine NearestTo.ge_of_significant h (ten_pow_pos _) significant_unitsLimit ?_
  have hbase : (-exponent).toNat = 0 := by omega
  obtain ⟨a, -, ha, hlimit⟩ := unitsLimit_eq
  rw [hbase, ten_pow_zero, Nat.mul_one, hlimit]
  refine Nat.mul_le_mul_right _ ?_
  exact (two_pow_le_ten_pow (by omega)).trans
    (Nat.le_mul_of_pos_left _ (Nat.pos_of_ne_zero hdigits))

end NearestUnits

variable {negative : Bool} {x : Binary64}

theorem ofQuotient_eq_some_iff (hden : 0 < den) :
    Binary64.ofQuotient negative num den = some x ↔
      ∃ m, NearestTo (num * unitsPerOne) den m ∧ m < unitsLimit ∧ x = ⟨negative, m⟩ := by
  have hnearest := nearestTo_roundTo53 (num * unitsPerOne) hden
  simp only [Binary64.ofQuotient]
  constructor
  · intro h
    split at h
    · rename_i hlimit
      exact ⟨_, hnearest, hlimit, (Option.some.inj h).symm⟩
    · cases h
  · rintro ⟨m, hm, hlimit, rfl⟩
    obtain rfl := hm.unique hnearest
    rw [if_pos hlimit]

theorem some_zero_eq_some_iff {digits : Nat} {exponent : Int}
    (hsmall : digits = 0 ∨ exponent < 0 ∧ digits.log2 + 3 * exponent < -1200) :
    some (Binary64.zero negative) = some x ↔
      ∃ m, NearestUnits digits exponent m ∧ m < unitsLimit ∧ x = ⟨negative, m⟩ := by
  constructor
  · intro h
    obtain ⟨m, hm⟩ := NearestUnits.exists_nearest digits exponent
    obtain rfl := hm.eq_zero_of_small hsmall
    exact ⟨0, hm, unitsLimit_pos, (Option.some.inj h).symm⟩
  · rintro ⟨m, hm, -, rfl⟩
    rw [hm.eq_zero_of_small hsmall, Binary64.zero]

/-- The double of a decimal number is the nearest one, also where its exponent is so large or so
small that nothing is computed. -/
theorem ofDecimal_eq_some_iff {digits : Nat} {exponent : Int} :
    Binary64.ofDecimal negative digits exponent = some x ↔
      ∃ m, NearestUnits digits exponent m ∧ m < unitsLimit ∧ x = ⟨negative, m⟩ := by
  unfold Binary64.ofDecimal
  dsimp only
  by_cases hdigits : digits = 0
  · rw [if_pos hdigits]
    exact some_zero_eq_some_iff (.inl hdigits)
  rw [if_neg hdigits]
  by_cases hlarge : 400 < exponent
  · rw [if_pos hlarge]
    refine iff_of_false nofun ?_
    rintro ⟨m, hm, hlimit, -⟩
    exact absurd hlimit (Nat.not_lt_of_le (hm.unitsLimit_le_of_large hdigits hlarge))
  rw [if_neg hlarge]
  by_cases hnonneg : 0 ≤ exponent
  · have hbase : (-exponent).toNat = 0 := by omega
    rw [if_neg (by simp [hnonneg]), if_pos hnonneg]
    simp only [NearestUnits, hbase, ten_pow_zero]
    exact ofQuotient_eq_some_iff Nat.one_pos
  have hnum : exponent.toNat = 0 := by omega
  by_cases hsmall : exponent < 0 ∧ digits.log2 + 3 * exponent < -1200
  · rw [if_pos (by simpa using hsmall)]
    exact some_zero_eq_some_iff (.inr hsmall)
  · rw [if_neg (by simpa using hsmall), if_neg hnonneg]
    simp only [NearestUnits, hnum, ten_pow_zero, Nat.mul_one]
    exact ofQuotient_eq_some_iff (ten_pow_pos _)

end Agentry.Decimal
