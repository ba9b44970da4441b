import Dialogue.Proofs.Number.Scientific

/-!
# The shortest decimal of a float

The decimals that read back to a float lie in its interval of rounding. Seventeen digits are enough
for one of them to lie there, since the step between decimals of so many digits is less than the
width of the interval. So the shortest decimal of a finite float reads back to it.
-/

namespace Dialogue.Decimal

open Number

/-! ## Decimals on a grid -/

/-- A decimal hits an interval, with its ends or without them. -/
def Hits (low high : ℚ) (closed : Bool) (v : ℚ) : Prop :=
  if closed then low ≤ v ∧ v ≤ high else low < v ∧ v < high

/-- What lies between the ends hits, whether they count or not. -/
theorem hits_of_lt {low high v : ℚ} (closed : Bool) (left : low < v) (right : v < high) :
    Hits low high closed v := by
  unfold Hits
  split
  · exact ⟨left.le, right.le⟩
  · exact ⟨left, right⟩

variable {num low high den : Nat} {closed : Bool} {lead : Int} {n : Nat} {d : Decimal}

/-- The power of ten before the digits, as a fraction. -/
theorem grid_power (x : Int) :
    ((if x < 0 then 1 else Nat.pow 10 x.toNat : Nat) : ℚ) /
      (if x < 0 then Nat.pow 10 (-x).toNat else 1 : Nat) = 10 ^ x := by
  split
  · have negated : x = -((-x).toNat : Int) := by omega
    conv_rhs => rw [negated, zpow_neg, zpow_natCast]
    simp
  · have same : x = (x.toNat : Int) := by omega
    conv_rhs => rw [same, zpow_natCast]
    simp

section

variable (low high den closed) (x : Int)

/-- The factor that makes an exponent below zero vanish. -/
def upward : Nat := if x < 0 then Nat.pow 10 (-x).toNat else 1

/-- The step of the grid, over the common denominator. -/
def stepOver : Nat := (if x < 0 then 1 else Nat.pow 10 x.toNat) * den

/-- The test of `onGrid?`. -/
def hitsTest (k : Nat) : Bool :=
  if closed then low * upward x ≤ k * stepOver den x && k * stepOver den x ≤ high * upward x
  else low * upward x < k * stepOver den x && k * stepOver den x < high * upward x

end

variable {x : Int}

theorem upward_pos (x : Int) : (0 : ℚ) < upward x := by
  unfold upward
  split
  · exact_mod_cast Nat.pow_pos (by decide)
  · norm_num

/-- Comparing over the common denominator is comparing with the decimal. -/
theorem step_div (positive : 0 < den) (k : Nat) :
    ((k * stepOver den x : Nat) : ℚ) / (upward x * den) = decimalValue k x := by
  have some : (den : ℚ) ≠ 0 := by exact_mod_cast positive.ne'
  have up := (upward_pos x).ne'
  have power := grid_power x
  have parts : (stepOver den x : ℚ) / (upward x * den) = 10 ^ x := by
    rw [← power, stepOver, upward]
    push_cast
    field_simp
  rw [decimalValue, ← parts, Nat.cast_mul, mul_div_assoc]

theorem bound_div (positive : 0 < den) (a : Nat) :
    ((a * upward x : Nat) : ℚ) / (upward x * den) = a / den := by
  have some : (den : ℚ) ≠ 0 := by exact_mod_cast positive.ne'
  have up := (upward_pos x).ne'
  rw [Nat.cast_mul]
  field_simp

/-- The test compares whole numbers, and tells whether the decimal is in the interval. -/
theorem hitsTest_iff (positive : 0 < den) (k : Nat) :
    hitsTest low high den closed x k ↔
      Hits (low / den) (high / den) closed (decimalValue k x) := by
  have scale : (0 : ℚ) < upward x * den := mul_pos (upward_pos x) (by exact_mod_cast positive)
  rw [← step_div positive, ← bound_div (x := x) positive low, ← bound_div (x := x) positive high]
  unfold hitsTest Hits
  cases closed <;>
    simp only [Bool.false_eq_true, if_false, if_true, Bool.and_eq_true, decide_eq_true_eq,
      div_lt_div_iff_of_pos_right scale, div_le_div_iff_of_pos_right scale, Nat.cast_lt,
      Nat.cast_le]

/-- The search at one width: the neighbour of the value that hits, or the one that a rule chooses of
two that do. -/
theorem onGrid?_eq (num low high den : Nat) (closed : Bool) (lead : Int) (n : Nat) :
    ∃ nearer : Bool, onGrid? num low high den closed lead n =
      let x := lead + 1 - n
      let below := num * upward x / stepOver den x
      match hitsTest low high den closed x below, hitsTest low high den closed x (below + 1) with
      | true, true => some ⟨if nearer then below else below + 1, x⟩
      | true, false => some ⟨below, x⟩
      | false, true => some ⟨below + 1, x⟩
      | false, false => none := ⟨_, rfl⟩

/-- What is found on a grid is in the interval. -/
theorem onGrid?_hits (positive : 0 < den)
    (found : onGrid? num low high den closed lead n = some d) :
    Hits (low / den) (high / den) closed d.value := by
  obtain ⟨nearer, search⟩ := onGrid?_eq num low high den closed lead n
  rw [search] at found
  dsimp only at found
  split at found
  case h_1 first second =>
    obtain rfl := Option.some.inj found
    cases nearer
    · exact (hitsTest_iff positive _).1 second
    · exact (hitsTest_iff positive _).1 first
  case h_2 first _ =>
    obtain rfl := Option.some.inj found
    exact (hitsTest_iff positive _).1 first
  case h_3 _ second =>
    obtain rfl := Option.some.inj found
    exact (hitsTest_iff positive _).1 second
  case h_4 => cases found

/-- The value lies between two neighbours of the grid. -/
theorem quotient_bounds (positive : 0 < den) (num : Nat) (x : Int) :
    decimalValue (num * upward x / stepOver den x) x ≤ num / den ∧
      (num / den : ℚ) < decimalValue (num * upward x / stepOver den x + 1) x := by
  have scale : (0 : ℚ) < upward x * den := mul_pos (upward_pos x) (by exact_mod_cast positive)
  have step : 0 < stepOver den x := by
    unfold stepOver
    split
    · simpa using positive
    · exact Nat.mul_pos (Nat.pow_pos (by decide)) positive
  rw [← step_div positive, ← step_div positive, ← bound_div (x := x) positive num,
    div_le_div_iff_of_pos_right scale, div_lt_div_iff_of_pos_right scale]
  constructor
  · exact_mod_cast Nat.div_mul_le_self _ _
  · exact_mod_cast Nat.lt_mul_of_div_lt (Nat.lt_succ_self _) step

/-- Where nothing is found, a step of the grid is no shorter than the interval around the value. -/
theorem le_step_of_onGrid?_none (positive : 0 < den)
    (inside : (low / den : ℚ) < num / den ∧ (num / den : ℚ) < high / den)
    (missing : onGrid? num low high den closed lead n = none) :
    (high / den - low / den : ℚ) ≤ 10 ^ (lead + 1 - n) := by
  obtain ⟨nearer, search⟩ := onGrid?_eq num low high den closed lead n
  generalize lead + 1 - (n : Int) = x at search ⊢
  rw [search] at missing
  dsimp only at missing
  obtain ⟨most, least⟩ := quotient_bounds positive num x
  generalize num * upward x / stepOver den x = below at missing most least
  have next : decimalValue (below + 1) x = decimalValue below x + 10 ^ x := by
    simp only [decimalValue]
    push_cast
    ring
  have misses {k : Nat} (test : ¬hitsTest low high den closed x k) :
      ¬Hits (low / den) (high / den) closed (decimalValue k x) := mt (hitsTest_iff positive k).2 test
  split at missing
  case h_4 first second =>
    have left : decimalValue below x ≤ low / den := by
      by_contra beyond
      exact misses (by simp [first]) (hits_of_lt closed (not_le.1 beyond) (by linarith))
    have right : (high / den : ℚ) ≤ decimalValue (below + 1) x := by
      by_contra beyond
      exact misses (by simp [second]) (hits_of_lt closed (by linarith) (not_le.1 beyond))
    linarith
  all_goals cases missing

/-! ## The leading digit -/

/-- The power of ten of the leading digit is not above the value. -/
theorem zpow_leadingExponent_le (positive : 0 < num) (some : 0 < den) :
    (10 : ℚ) ^ leadingExponent num den ≤ num / den := by
  have denominator : (0 : ℚ) < den := by exact_mod_cast some
  have numerator : (0 : ℚ) < num := by exact_mod_cast positive
  unfold leadingExponent
  split
  case isTrue large =>
    have quotient : num / den ≠ 0 := (Nat.div_pos large some).ne'
    have least := (decimalValue_bounds quotient 0).1
    rw [add_zero, decimalValue, zpow_zero, mul_one] at least
    exact least.trans Nat.cast_div_le
  case isFalse small =>
    have more : num < den := not_le.1 small
    have ceiling : den ≤ (den + num - 1) / num * num := by
      have parts := Nat.div_add_mod (den + num - 1) num
      have rest := Nat.mod_lt (den + num - 1) positive
      rw [Nat.mul_comm] at parts
      omega
    have two : 2 ≤ (den + num - 1) / num := by
      rw [Nat.le_div_iff_mul_le positive]
      omega
    have some : (den + num - 1) / num - 1 ≠ 0 := by omega
    generalize (den + num - 1) / num = c at ceiling two some ⊢
    have most : c ≤ 10 ^ (decimalDigits (c - 1)).length := by
      have less := (Nat.length_toDigits_le_iff (b := 10) (n := c - 1) (by decide)
        Nat.length_toDigits_pos).1 le_rfl
      rw [decimalDigits]
      omega
    rw [zpow_neg, zpow_natCast, inv_eq_one_div, div_le_div_iff₀ (by positivity) denominator, one_mul]
    calc (den : ℚ) ≤ c * num := by exact_mod_cast ceiling
      _ ≤ num * 10 ^ (decimalDigits (c - 1)).length := by
        rw [mul_comm]
        gcongr
        exact_mod_cast most

/-- Zeros at the end may be dropped. -/
theorem value_trimZerosFuel (fuel : Nat) (d : Decimal) : (trimZerosFuel fuel d).value = d.value := by
  induction fuel generalizing d with
  | zero => rfl
  | succ fuel ih =>
    unfold trimZerosFuel
    split
    case isTrue zero =>
      have digits : (d.digits : ℚ) = 10 * (d.digits / 10 : Nat) := by
        have parts := Nat.div_add_mod d.digits 10
        rw [zero.2, add_zero] at parts
        exact_mod_cast parts.symm
      rw [ih]
      simp only [value, decimalValue, digits, zpow_add_one₀ (by norm_num : (10 : ℚ) ≠ 0)]
      ring
    case isFalse => rfl

/-! ## The shortest decimal -/

/-- How far the interval of rounding reaches down, in quarters of the last place. -/
def gapBelow (m : Nat) (e : Int) : Nat := if m = hiddenBit ∧ e ≠ -1074 then 1 else 2

variable {m : Nat} {e : Int}

/-- The gap below a float is half of the one above at least. -/
theorem gapBelow_bounds (m : Nat) (e : Int) : 1 ≤ gapBelow m e ∧ gapBelow m e ≤ 2 := by
  unfold gapBelow
  split <;> omega

theorem zpow_eq_quarters (e : Int) : (2 : ℚ) ^ e = 4 * 2 ^ (e - 2) := by
  rw [zpow_sub₀ (by norm_num)]
  norm_num
  ring

/-- Hitting the interval of rounding is being rounded to the float. -/
theorem roundsTo_of_hits {v : ℚ}
    (h : Hits ((4 * m - gapBelow m e : ℚ) * 2 ^ (e - 2)) ((4 * m + 2) * 2 ^ (e - 2)) (m % 2 = 0) v) :
    RoundsTo v m e := by
  have quarter := zpow_eq_quarters e
  have unit : (0 : ℚ) < 2 ^ (e - 2) := by positivity
  obtain ⟨-, two⟩ := gapBelow_bounds m e
  have atMost : (gapBelow m e : ℚ) ≤ 2 := by exact_mod_cast two
  have ends : (4 * m - gapBelow m e : ℚ) * 2 ^ (e - 2) ≤ v ∧ v ≤ (4 * m + 2) * 2 ^ (e - 2) := by
    unfold Hits at h
    split at h
    · exact h
    · exact ⟨h.1.le, h.2.le⟩
  have least : (4 * m - 2 : ℚ) * 2 ^ (e - 2) ≤ (4 * m - gapBelow m e) * 2 ^ (e - 2) := by gcongr
  constructor
  · rw [quarter]
    linarith [ends.2]
  · rw [quarter]
    linarith [ends.1]
  · intro power notLeast
    have one : gapBelow m e = 1 := if_pos ⟨power, notLeast⟩
    rw [quarter]
    have low := ends.1
    rw [one] at low
    push_cast at low
    linarith
  · intro odd
    have notEven : ¬m % 2 = 0 := by omega
    simp only [Hits, notEven, decide_false, Bool.false_eq_true, if_false] at h
    rw [quarter]
    constructor
    · linarith [h.2]
    · linarith [h.1]

/-- Seventeen digits are enough: their step is less than the width of the interval. -/
theorem step_lt_width (c : Canonical m e) {lead : Int} (leads : (10 : ℚ) ^ lead ≤ m * 2 ^ e) :
    (10 : ℚ) ^ (lead + 1 - 17) <
      (4 * m + 2) * 2 ^ (e - 2) - (4 * m - gapBelow m e) * 2 ^ (e - 2) := by
  have quarter := zpow_eq_quarters e
  have unit : (0 : ℚ) < 2 ^ (e - 2) := by positivity
  have step : (10 : ℚ) ^ (lead + 1 - 17) * 10 ^ 16 = 10 ^ lead := by
    rw [← zpow_natCast, ← zpow_add₀ (by norm_num)]
    congr 1
    push_cast
    ring
  have fits : (m : ℚ) < 2 ^ 53 := by exact_mod_cast c.fits
  rw [quarter] at leads
  by_cases power : m = hiddenBit ∧ e ≠ -1074
  · have one : gapBelow m e = 1 := if_pos power
    have value : (m : ℚ) = 2 ^ 52 := by
      rw [power.1]
      norm_num [hiddenBit]
    rw [value] at leads
    rw [one, value]
    push_cast
    nlinarith
  · have two : gapBelow m e = 2 := if_neg power
    rw [two]
    push_cast
    nlinarith

/-- The unit of the interval of rounding as a fraction, and the search in terms of it. -/
theorem exists_search {x : Float} (parts : magnitude x = ⟨m, e⟩) (some : m ≠ 0) :
    ∃ scale den : Nat, 0 < scale ∧ 0 < den ∧ (scale / den : ℚ) = 2 ^ (e - 2) ∧
      shortest x = trimZerosFuel 20 (((List.range 17).findSome? fun n =>
        onGrid? (4 * m * scale) ((4 * m - gapBelow m e) * scale) ((4 * m + 2) * scale) den
          (m % 2 = 0) (leadingExponent (4 * m * scale) den) (n + 1)).getD ⟨0, 0⟩) := by
  refine ⟨if 0 ≤ e - 2 then 1 <<< (e - 2).toNat else 1,
    if 0 ≤ e - 2 then 1 else 1 <<< (-(e - 2)).toNat, ?_, ?_, ?_, ?_⟩
  · split <;> simp [Nat.shiftLeft_eq]
  · split <;> simp [Nat.shiftLeft_eq]
  · split
    case isTrue up =>
      conv_rhs => rw [← Int.toNat_of_nonneg up, zpow_natCast]
      simp [Nat.shiftLeft_eq]
    case isFalse down =>
      have negated : e - 2 = -((-(e - 2)).toNat : Int) := by omega
      conv_rhs => rw [negated, zpow_neg, zpow_natCast]
      simp [Nat.shiftLeft_eq]
  · have exponent : e - 2 + 2 = e := by omega
    simp only [shortest, parts, some, if_false, exponent, gapBelow]

/-- The shortest decimal of a finite float lies where rounding gives the float. -/
theorem roundsTo_shortest {x : Float} (finite : x.isFinite) (some : (magnitude x).mantissa ≠ 0) :
    RoundsTo (shortest x).value (magnitude x).mantissa (magnitude x).exponent := by
  have c := canonical_magnitude finite some
  generalize parts : magnitude x = d at some c ⊢
  obtain ⟨m, e⟩ := d
  dsimp only at some c ⊢
  obtain ⟨scale, den, positive, denominator, fraction, search⟩ := exists_search parts some
  have unit : (0 : ℚ) < 2 ^ (e - 2) := by positivity
  obtain ⟨one, two⟩ := gapBelow_bounds m e
  have gapPositive : (0 : ℚ) < gapBelow m e := by exact_mod_cast one
  have scaled (a : Nat) : ((a * scale : Nat) : ℚ) / den = a * 2 ^ (e - 2) := by
    rw [← fraction, Nat.cast_mul, mul_div_assoc]
  have num : ((4 * m * scale : Nat) : ℚ) / den = 4 * m * 2 ^ (e - 2) := by
    rw [scaled]
    push_cast
    rfl
  have low : (((4 * m - gapBelow m e) * scale : Nat) : ℚ) / den =
      (4 * m - gapBelow m e) * 2 ^ (e - 2) := by
    have atLeast := c.positive
    rw [scaled, Nat.cast_sub (by omega)]
    push_cast
    rfl
  have high : (((4 * m + 2) * scale : Nat) : ℚ) / den = (4 * m + 2) * 2 ^ (e - 2) := by
    rw [scaled]
    push_cast
    rfl
  rw [search, value_trimZerosFuel]
  rcases found : (List.range 17).findSome? _ with _ | d
  · have missing := List.findSome?_eq_none_iff.1 found 16 (by decide)
    have numerator : 0 < 4 * m * scale :=
      Nat.mul_pos (Nat.mul_pos (by decide) c.positive) positive
    have leads := zpow_leadingExponent_le numerator denominator
    rw [num] at leads
    have wide := le_step_of_onGrid?_none denominator (by
      rw [num, low, high]
      constructor <;> nlinarith) missing
    have below : (10 : ℚ) ^ leadingExponent (4 * m * scale) den ≤ m * 2 ^ e := by
      rw [zpow_eq_quarters]
      linarith
    have narrow := step_lt_width c below
    rw [low, high] at wide
    exact absurd wide (not_le.2 (by exact_mod_cast narrow))
  · obtain ⟨n, -, hit⟩ := List.exists_of_findSome?_eq_some found
    have hits := onGrid?_hits denominator hit
    rw [low, high] at hits
    exact roundsTo_of_hits hits

/-- A decimal that stands for the same number as the shortest one reads back to the float, up to its
sign. -/
theorem toFloat_shortest {x : Float} (finite : x.isFinite) {d : Decimal}
    (same : d.value = (shortest x).value) :
    (if isNegative x then -d.toFloat else d.toFloat) = x := by
  by_cases some : (magnitude x).mantissa = 0
  · have zero : d.digits = 0 := by
      have nothing : (shortest x).value = 0 := by simp [shortest, some, value, decimalValue]
      rw [nothing, value, decimalValue, mul_eq_zero] at same
      exact_mod_cast same.resolve_right (by positivity)
    have read : d.toFloat = 0.0 := by simp [toFloat, zero]
    rw [read]
    exact (eq_zero_of_magnitude some).symm
  · have c := canonical_magnitude finite some
    have near := roundsTo_shortest finite some
    rw [← same] at near
    have read := toFloat_of_roundsTo c near
    conv_rhs => rw [eq_ofParts finite some]
    unfold signOf
    split
    · rw [read]
      exact neg_ofParts c
    · exact read

end Dialogue.Decimal
