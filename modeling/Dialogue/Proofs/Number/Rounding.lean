import Mathlib

/-!
# Rounding to the nearest float

A float that is neither zero nor infinite is a mantissa of at most fifty-three bits times a power of
two; its form is canonical when the mantissa has all these bits or the exponent is the least.
Rounding keeps what it drops of a mantissa as two bits, which say where the number lies between two
neighbours. So a number that lies nearer to a float than to any other, or half way and the mantissa
is even, is rounded to that float.
-/

namespace Dialogue.Number

open Float.Model (Format totalExponent)
open Float.Model.UnpackedFloat
open Float.Model.UnpackedFloat.ExtendedMantissa

/-! ## Approximations -/

/-- The number lies at a mantissa, or where the accuracy says between it and the next. -/
def Approximates (v : ℚ) (m : Nat) (e : Int) : Accuracy → Prop
  | .exact => v = m * 2 ^ e
  | .inexact .lt => m * 2 ^ e < v ∧ v < (m + 1 / 2) * 2 ^ e
  | .inexact .eq => v = (m + 1 / 2) * 2 ^ e
  | .inexact .gt => (m + 1 / 2) * 2 ^ e < v ∧ v < (m + 1) * 2 ^ e

theorem accuracy_ofMantissaAndAccuracy (m : Nat) (a : Accuracy) :
    (ofMantissaAndAccuracy m a).mantissa = m ∧ (ofMantissaAndAccuracy m a).accuracy = a := by
  rcases a with - | (_ | _ | _) <;> exact ⟨rfl, rfl⟩

/-- Dropping one bit keeps an approximation. -/
theorem approximates_shiftRightOne {v : ℚ} {em : ExtendedMantissa} {e : Int}
    (h : Approximates v em.mantissa e em.accuracy) :
    Approximates v em.shiftRightOne.mantissa (e + 1) em.shiftRightOne.accuracy := by
  obtain ⟨m, round, sticky⟩ := em
  have power : (2 : ℚ) ^ (e + 1) = 2 * 2 ^ e := by rw [zpow_add_one₀ (by norm_num)]; ring
  have positive : (0 : ℚ) < 2 ^ e := by positivity
  have halves : (m : ℚ) = 2 * ((m / 2 : Nat) : ℚ) + ((m % 2 : Nat) : ℚ) := by
    exact_mod_cast (Nat.div_add_mod m 2).symm
  obtain even | odd := Nat.mod_two_eq_zero_or_one m
  · rw [even, Nat.cast_zero, add_zero] at halves
    cases round <;> cases sticky <;>
      simp only [accuracy, shiftRightOne, Approximates, even, power, halves, Bool.or_self,
        Bool.or_true, Bool.or_false, bne_self_eq_false] at h ⊢
    · rw [h]; ring
    · constructor <;> linarith [h.1, h.2]
    · constructor <;> linarith
    · constructor <;> linarith [h.1, h.2]
  · rw [odd, Nat.cast_one] at halves
    have set : ((1 : Nat) != 0) = true := rfl
    cases round <;> cases sticky <;>
      simp only [accuracy, shiftRightOne, Approximates, odd, power, halves, Bool.or_self,
        Bool.or_true, Bool.or_false, set] at h ⊢
    · rw [h]; ring
    · constructor <;> linarith [h.1, h.2]
    · constructor <;> linarith
    · constructor <;> linarith [h.1, h.2]

theorem mantissa_shiftRight (em : ExtendedMantissa) (k : Nat) :
    (em >>> k).mantissa = em.mantissa / 2 ^ k := by
  induction k with
  | zero => simp [HShiftRight.hShiftRight, Nat.repeat]
  | succ k ih =>
    have step : (em >>> (k + 1)).mantissa = (em >>> k).mantissa / 2 := rfl
    rw [step, ih, Nat.div_div_eq_div_mul, Nat.pow_succ]

/-- Shifting keeps track of what is lost. -/
theorem approximates_shiftRight {v : ℚ} {em : ExtendedMantissa} {e : Int}
    (h : Approximates v em.mantissa e em.accuracy) (k : Nat) :
    Approximates v (em >>> k).mantissa (e + k) (em >>> k).accuracy := by
  induction k with
  | zero => simpa [HShiftRight.hShiftRight, Nat.repeat] using h
  | succ k ih =>
    have step := approximates_shiftRightOne ih
    rw [add_assoc] at step
    exact_mod_cast step

/-- An approximation gives the number up to one unit of the mantissa. -/
theorem Approximates.bounds {v : ℚ} {m : Nat} {e : Int} {a : Accuracy} (h : Approximates v m e a) :
    m * 2 ^ e ≤ v ∧ v < (m + 1) * 2 ^ e := by
  have positive : (0 : ℚ) < 2 ^ e := by positivity
  rcases a with - | (_ | _ | _) <;> simp only [Approximates] at h <;> constructor <;> linarith

/-! ## Floats in canonical form -/

/-- The mantissa and the exponent of a positive float in canonical form. -/
structure Canonical (m : Nat) (e : Int) : Prop where
  positive : 0 < m
  fits : m < 2 ^ 53
  least : -1074 ≤ e
  most : e ≤ 971
  full : 2 ^ 52 ≤ m ∨ e = -1074

/-- The number lies where rounding gives the float: half way to its neighbours at most, and less
than that when the mantissa is odd. Below a power of two the neighbour is nearer. -/
structure RoundsTo (v : ℚ) (m : Nat) (e : Int) : Prop where
  above : v ≤ (m + 1 / 2) * 2 ^ e
  below : (m - 1 / 2) * 2 ^ e ≤ v
  belowPower : m = 2 ^ 52 → e ≠ -1074 → (m - 1 / 4) * 2 ^ e ≤ v
  inside : m % 2 = 1 → v < (m + 1 / 2) * 2 ^ e ∧ (m - 1 / 2) * 2 ^ e < v

/-- A number on the grid rounds to itself. -/
theorem roundsTo_self (m : Nat) (e : Int) : RoundsTo (m * 2 ^ e) m e := by
  have positive : (0 : ℚ) < 2 ^ e := by positivity
  constructor
  · linarith
  · linarith
  · intro _ _
    linarith
  · intro _
    constructor <;> linarith

variable {v : ℚ} {m : Nat} {e : Int}

/-- What rounds to a canonical number is positive. -/
theorem RoundsTo.pos (h : RoundsTo v m e) (c : Canonical m e) : 0 < v := by
  have unit : (0 : ℚ) < 2 ^ e := by positivity
  have one : (1 : ℚ) ≤ m := by exact_mod_cast c.positive
  have below := h.below
  nlinarith

/-- The target exponent for binary64. -/
theorem targetExponent_eq (m : Nat) (e : Int) :
    Format.binary64.targetExponent (totalExponent m e) = max (m.log2 + e - 52) (-1074) := by
  simp only [Format.targetExponent, totalExponent, Format.mantissaBits, Format.minExponent]
  norm_num
  omega

/-- A canonical number stands at the exponent that it is rounded at. -/
theorem canonical_target (c : Canonical m e) :
    Format.binary64.targetExponent (totalExponent m e) = e := by
  have log : m.log2 < 53 := (Nat.log2_lt c.positive.ne').2 c.fits
  have least := c.least
  rw [targetExponent_eq]
  rcases c.full with full | least
  · have enough : 52 ≤ m.log2 := (Nat.le_log2 c.positive.ne').2 full
    omega
  · omega

/-- Shifted to its target exponent, an approximation has a full mantissa or the least exponent. -/
theorem exists_shift {a : Accuracy} (h : Approximates v m e a) (enough : 2 ^ 52 ≤ m ∨ e ≤ -1074) :
    ∃ em t, shiftToTargetExponent Format.binary64 m e a = (em, t) ∧
      Approximates v em.mantissa t em.accuracy ∧ em.mantissa < 2 ^ 53 ∧ -1074 ≤ t ∧
      (2 ^ 52 ≤ em.mantissa ∨ t = -1074) := by
  obtain ⟨t, target⟩ : ∃ t, Format.binary64.targetExponent (totalExponent m e) = t := ⟨_, rfl⟩
  have value := target
  rw [targetExponent_eq] at value
  have log (full : 2 ^ 52 ≤ m) : 52 ≤ m.log2 := (Nat.le_log2 (by omega)).2 full
  obtain ⟨k, reached⟩ : ∃ k : Nat, e + k = t := ⟨(t - e).toNat, by
    rcases enough with full | least
    · have := log full
      omega
    · omega⟩
  have amount : (t - e).toNat = k := by omega
  have start := accuracy_ofMantissaAndAccuracy m a
  have shifted := mantissa_shiftRight (ofMantissaAndAccuracy m a) k
  rw [start.1] at shifted
  refine ⟨ofMantissaAndAccuracy m a >>> k, t, ?_, ?_, ?_, by omega, ?_⟩
  · rw [shiftToTargetExponent, target]
    simp only [shiftToExponent, amount, reached]
  · rw [← reached]
    refine approximates_shiftRight ?_ k
    rwa [start.1, start.2]
  · have bits : m < 2 ^ (53 + k) :=
      lt_of_lt_of_le Nat.lt_log2_self (Nat.pow_le_pow_right (by decide) (by omega))
    rw [shifted, Nat.div_lt_iff_lt_mul (by positivity), ← Nat.pow_add]
    exact bits
  · by_cases least : t = -1074
    · exact .inr least
    · have some : m ≠ 0 := by
        rintro rfl
        rcases enough with full | low
        · omega
        · simp only [Nat.log2_zero, Nat.cast_zero] at value
          omega
      have bits : 2 ^ (52 + k) ≤ m :=
        le_trans (Nat.pow_le_pow_right (by decide) (by omega)) (Nat.log2_self_le some)
      rw [shifted, Nat.le_div_iff_mul_le (by positivity), ← Nat.pow_add]
      exact .inl bits

/-! ## Rounding -/

/-- Numbers compare as at any common exponent. -/
theorem lt_of_mul_zpow_lt {a b : ℚ} (h : a * 2 ^ e < b * 2 ^ e) : a < b :=
  lt_of_mul_lt_mul_right h (by positivity)

theorem le_of_mul_zpow_le {a b : ℚ} (h : a * 2 ^ e ≤ b * 2 ^ e) : a ≤ b :=
  le_of_mul_le_mul_right h (by positivity)

/-- An approximation in units of the float's last place is rounded to its mantissa. -/
theorem roundToNearestEven_of_roundsTo {n : Nat} {a : Accuracy} (h : RoundsTo v m e)
    (near : Approximates v n e a) : a.roundToNearestEven n = m := by
  obtain ⟨low, high⟩ := near.bounds
  have unit : (0 : ℚ) < 2 ^ e := by positivity
  have notAbove : n ≤ m := by
    have close : (n : ℚ) ≤ m + 1 / 2 := le_of_mul_zpow_le (low.trans h.above)
    have strict : (n : ℚ) < (m + 1 : Nat) := by push_cast; linarith
    exact Nat.lt_succ_iff.1 (by exact_mod_cast strict)
  have notBelow : m ≤ n + 1 := by
    have close : (m : ℚ) - 1 / 2 < n + 1 := lt_of_mul_zpow_lt (h.below.trans_lt high)
    have strict : (m : ℚ) < (n + 2 : Nat) := by push_cast; linarith
    exact Nat.lt_succ_iff.1 (by exact_mod_cast strict)
  obtain rfl | rfl : n = m ∨ m = n + 1 := by omega
  · rcases a with - | (_ | _ | _)
    · rfl
    · rfl
    · obtain even | odd := Nat.mod_two_eq_zero_or_one n
      · simp [Accuracy.roundToNearestEven, even]
      · exact absurd near (h.inside odd).1.ne
    · exact absurd near.1 h.above.not_gt
  · have below := h.below
    push_cast at below
    rcases a with - | (_ | _ | _) <;> simp only [Approximates] at near
    · linarith
    · linarith
    · obtain even | odd := Nat.mod_two_eq_zero_or_one (n + 1)
      · have last : n % 2 = 1 := by omega
        simp [Accuracy.roundToNearestEven, last]
      · have inside := (h.inside odd).2
        push_cast at inside
        linarith
    · rfl

/-- So is one in units half as large, right below a power of two. -/
theorem roundToNearestEven_of_below {n : Nat} {a : Accuracy} (fits : n < 2 ^ 53)
    (below : (2 ^ 53 - 1 / 2) * 2 ^ e ≤ v) (near : Approximates v n e a) :
    a.roundToNearestEven n = 2 ^ 53 := by
  obtain ⟨-, high⟩ := near.bounds
  have unit : (0 : ℚ) < 2 ^ e := by positivity
  have last : n = 2 ^ 53 - 1 := by
    have close : (2 : ℚ) ^ 53 - 1 / 2 < n + 1 := lt_of_mul_zpow_lt (below.trans_lt high)
    have strict : ((2 ^ 53 : Nat) : ℚ) < (n + 2 : Nat) := by push_cast; linarith
    have bound : 2 ^ 53 < n + 2 := by exact_mod_cast strict
    omega
  subst last
  rcases a with - | (_ | _ | _) <;> simp only [Approximates] at near <;> push_cast at near
  · linarith
  · linarith
  · rfl
  · rfl

/-- A smaller exponent is half as large at most. -/
theorem zpow_le_zpow_of_lt {t : Int} (h : t < e) : 2 * (2 : ℚ) ^ t ≤ 2 ^ e := by
  have next : (2 : ℚ) ^ (t + 1) ≤ 2 ^ e := zpow_le_zpow_right₀ (by norm_num) h
  rw [zpow_add_one₀ (by norm_num)] at next
  linarith

/-- The unit in which a number is rounded is that of the float that it is rounded to, or half of it
right below a power of two. -/
theorem shift_target {n : Nat} {t : Int} (c : Canonical m e) (h : RoundsTo v m e)
    (low : n * 2 ^ t ≤ v) (high : v < (n + 1) * 2 ^ t) (fits : n < 2 ^ 53) (least : -1074 ≤ t)
    (full : 2 ^ 52 ≤ n ∨ t = -1074) : t = e ∨ t = e - 1 ∧ m = 2 ^ 52 := by
  have fits' : (n : ℚ) + 1 ≤ 2 ^ 53 := by exact_mod_cast fits
  have unit : (0 : ℚ) < 2 ^ e := by positivity
  have step : (0 : ℚ) < 2 ^ t := by positivity
  rcases lt_trichotomy t e with less | same | more
  · refine .inr ?_
    have fullFloat : 2 ^ 52 ≤ m := by
      rcases c.full with full | e_least
      · exact full
      · omega
    have halves := zpow_le_zpow_of_lt less
    have top : v < 2 ^ 52 * 2 ^ e := by nlinarith
    have power : m = 2 ^ 52 := by
      have close : (m : ℚ) - 1 / 2 < 2 ^ 52 := lt_of_mul_zpow_lt (h.below.trans_lt top)
      have strict : (m : ℚ) < (2 ^ 52 + 1 : Nat) := by push_cast; linarith
      have bound : m < 2 ^ 52 + 1 := by exact_mod_cast strict
      omega
    refine ⟨?_, power⟩
    by_contra apart
    have quarters := zpow_le_zpow_of_lt (show t < e - 1 by omega)
    have half : 2 * (2 : ℚ) ^ (e - 1) = 2 ^ e := by rw [zpow_sub_one₀ (by norm_num)]; ring
    have near := h.belowPower power (by omega)
    rw [power] at near
    push_cast at near
    nlinarith
  · exact .inl same
  · have fullMantissa : (2 : ℚ) ^ 52 ≤ n := by
      rcases full with full | t_least
      · exact_mod_cast full
      · have := c.least
        omega
    have doubles := zpow_le_zpow_of_lt more
    have above := h.above
    have fitsFloat : (m : ℚ) + 1 ≤ 2 ^ 53 := by exact_mod_cast c.fits
    nlinarith

/-- A canonical number is not shifted at all. -/
theorem shift_canonical (c : Canonical m e) :
    shiftToTargetExponent Format.binary64 m e .exact = (⟨m, false, false⟩, e) := by
  rw [shiftToTargetExponent, canonical_target c, shiftToExponent, Int.sub_self]
  exact Prod.ext rfl (add_zero e)

/-- A mantissa that rounding has made too long by a bit is shifted once more. -/
theorem shift_overflown (least : -1074 < e) :
    shiftToTargetExponent Format.binary64 (2 ^ 53) (e - 1) .exact = (⟨2 ^ 52, false, false⟩, e) := by
  have target : Format.binary64.targetExponent (totalExponent (2 ^ 53) (e - 1)) = e := by
    rw [targetExponent_eq, Nat.log2_two_pow]
    push_cast
    omega
  have amount : (e - (e - 1)).toNat = 1 := by omega
  rw [shiftToTargetExponent, target, shiftToExponent, amount]
  exact Prod.ext rfl (sub_add_cancel e 1)

/-- A number that is approximated well enough is rounded to the float that it lies at. -/
theorem roundWithAccuracy_of_roundsTo {n : Nat} {d : Int} {a : Accuracy} (s : Sign)
    (c : Canonical m e) (h : RoundsTo v m e) (near : Approximates v n d a)
    (enough : 2 ^ 52 ≤ n ∨ d ≤ -1074) :
    roundWithAccuracy Format.binary64 s n d a = .finite s m e c.positive := by
  obtain ⟨em, t, shifted, near, fits, least, full⟩ := exists_shift near enough
  have final : shiftToTargetExponent Format.binary64 em.roundedMantissa t .exact =
      (⟨m, false, false⟩, e) := by
    obtain ⟨low, high⟩ := near.bounds
    rcases shift_target c h low high fits least full with rfl | ⟨rfl, power⟩
    · have rounded : em.roundedMantissa = m := roundToNearestEven_of_roundsTo h near
      rw [rounded, shift_canonical c]
    · have above : -1074 < e := by omega
      have below : ((2 : ℚ) ^ 53 - 1 / 2) * 2 ^ (e - 1) ≤ v := by
        have gap := h.belowPower power above.ne'
        have half : (2 : ℚ) ^ e = 2 * 2 ^ (e - 1) := by rw [zpow_sub_one₀ (by norm_num)]; ring
        rw [power, half] at gap
        push_cast at gap
        linarith
      have rounded : em.roundedMantissa = 2 ^ 53 := roundToNearestEven_of_below fits below near
      rw [rounded, shift_overflown above, power]
  have positive : m ≠ 0 := c.positive.ne'
  simp only [roundWithAccuracy, shifted, final, positive, dite_false]

end Dialogue.Number
