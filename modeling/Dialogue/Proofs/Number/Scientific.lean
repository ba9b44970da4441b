import Dialogue.Proofs.Number.Packing

/-!
# Floats from decimals

Products and quotients of floats are rounded from approximations that are good enough, and so is a
decimal given by its digits and its exponent: it becomes the float that it lies at.
-/

namespace Dialogue.Number

open Float.Model (Format totalExponent UnpackedFloat)
open Float.Model.UnpackedFloat

variable {m m₁ m₂ : Nat} {e e₁ e₂ : Int}

/-- A product is what its value rounds to. -/
theorem mul_of_roundsTo (s₁ s₂ : Sign) (p₁ : 0 < m₁) (p₂ : 0 < m₂) (c : Canonical m e)
    (h : RoundsTo ((m₁ * 2 ^ e₁) * (m₂ * 2 ^ e₂)) m e) (enough : 2 ^ 52 ≤ m₁ * m₂) :
    UnpackedFloat.mul Format.binary64 (.finite s₁ m₁ e₁ p₁) (.finite s₂ m₂ e₂ p₂) =
      .finite (s₁ * s₂) m e c.positive := by
  refine roundWithAccuracy_of_roundsTo _ c h ?_ (.inl enough)
  rw [Approximates, zpow_add₀ (by norm_num)]
  push_cast
  ring

/-- A fraction of a unit says where the number lies between two mantissas. -/
theorem approximates_fraction {n r k : Nat} (less : r < k) (t : Int) :
    Approximates ((n + (r : ℚ) / k) * 2 ^ t) n t (accuracyOfFraction r k) := by
  have den : (0 : ℚ) < k := by exact_mod_cast Nat.zero_lt_of_lt less
  have unit : (0 : ℚ) < 2 ^ t := by positivity
  have whole : (r : ℚ) / k < 1 := (div_lt_one den).2 (by exact_mod_cast less)
  unfold accuracyOfFraction
  split
  case isTrue zero =>
    subst zero
    simp [Approximates]
  case isFalse some =>
    have positive : 0 < (r : ℚ) / k := div_pos (by exact_mod_cast Nat.pos_of_ne_zero some) den
    rcases order : compare (2 * r) k with _ | _ | _
    · have half : (r : ℚ) / k < 1 / 2 := by
        rw [div_lt_div_iff₀ den (by norm_num)]
        have := Nat.compare_eq_lt.1 order
        have cast : (2 * r : ℚ) < k := by exact_mod_cast this
        linarith
      constructor <;> nlinarith
    · have half : (r : ℚ) / k = 1 / 2 := by
        rw [div_eq_div_iff den.ne' (by norm_num)]
        have := Nat.compare_eq_eq.1 order
        have cast : (2 * r : ℚ) = k := by exact_mod_cast this
        linarith
      rw [half]
      rfl
    · have half : 1 / 2 < (r : ℚ) / k := by
        rw [div_lt_div_iff₀ (by norm_num) den]
        have := Nat.compare_eq_gt.1 order
        have cast : (k : ℚ) < 2 * r := by exact_mod_cast this
        linarith
      constructor <;> nlinarith

/-- A dividend is shifted until the quotient fills a mantissa or reaches the least exponent. -/
theorem exists_divCore (e₁ e₂ : Int) (p₁ : 0 < m₁) (p₂ : 0 < m₂) : ∃ n t a,
    divCore Format.binary64 m₁ e₁ m₂ e₂ = (n, t, a) ∧
      Approximates ((m₁ * 2 ^ e₁) / (m₂ * 2 ^ e₂)) n t a ∧ (2 ^ 52 ≤ n ∨ t ≤ -1074) := by
  obtain ⟨t, target⟩ : ∃ t, min (e₁ - e₂)
    (Format.binary64.targetExponent (totalExponent m₁ e₁ - totalExponent m₂ e₂)) = t := ⟨_, rfl⟩
  obtain ⟨k, reached⟩ : ∃ k : Nat, t + k = e₁ - e₂ := ⟨(e₁ - e₂ - t).toNat, by omega⟩
  have amount : (e₁ - e₂ - t).toNat = k := by omega
  have den : (m₂ : ℚ) ≠ 0 := by exact_mod_cast p₂.ne'
  refine ⟨_, _, _, rfl, ?_, ?_⟩
  · rw [target, amount, Nat.shiftLeft_eq]
    have value : (m₁ * 2 ^ e₁) / (m₂ * 2 ^ e₂) =
        ((m₁ * 2 ^ k / m₂ : Nat) + ((m₁ * 2 ^ k % m₂ : Nat) : ℚ) / m₂) * 2 ^ t := by
      have parts : (m₂ : ℚ) * (m₁ * 2 ^ k / m₂ : Nat) + (m₁ * 2 ^ k % m₂ : Nat) =
          m₁ * 2 ^ k := by
        exact_mod_cast Nat.div_add_mod (m₁ * 2 ^ k) m₂
      have powers : (2 : ℚ) ^ e₁ = 2 ^ t * 2 ^ k * 2 ^ e₂ := by
        rw [← zpow_natCast, ← zpow_add₀ (by norm_num), ← zpow_add₀ (by norm_num), reached]
        congr 1
        omega
      have unit : (2 : ℚ) ^ e₂ ≠ 0 := by positivity
      field_simp
      rw [powers, parts]
      ring
    rw [value]
    exact approximates_fraction (Nat.mod_lt _ p₂) t
  · rw [target, amount, Nat.shiftLeft_eq]
    by_cases least : t ≤ -1074
    · exact .inr least
    · refine .inl ((Nat.le_div_iff_mul_le p₂).2 ?_)
      have bits : m₁.log2 + k ≥ 53 + m₂.log2 := by
        simp only [Format.targetExponent, totalExponent, Format.mantissaBits,
          Format.minExponent] at target
        norm_num at target
        omega
      calc 2 ^ 52 * m₂ ≤ 2 ^ 52 * 2 ^ (m₂.log2 + 1) :=
            Nat.mul_le_mul_left _ Nat.lt_log2_self.le
        _ = 2 ^ (53 + m₂.log2) := by rw [← Nat.pow_add]; congr 1; omega
        _ ≤ 2 ^ (m₁.log2 + k) := Nat.pow_le_pow_right (by decide) bits
        _ = 2 ^ m₁.log2 * 2 ^ k := Nat.pow_add ..
        _ ≤ m₁ * 2 ^ k := Nat.mul_le_mul_right _ (Nat.log2_self_le p₁.ne')

/-- So is a quotient. -/
theorem div_of_roundsTo (s₁ s₂ : Sign) (p₁ : 0 < m₁) (p₂ : 0 < m₂) (c : Canonical m e)
    (h : RoundsTo ((m₁ * 2 ^ e₁) / (m₂ * 2 ^ e₂)) m e) :
    UnpackedFloat.div Format.binary64 (.finite s₁ m₁ e₁ p₁) (.finite s₂ m₂ e₂ p₂) =
      .finite (s₁ / s₂) m e c.positive := by
  obtain ⟨n, t, a, core, near, enough⟩ := exists_divCore e₁ e₂ p₁ p₂
  rw [UnpackedFloat.div, core]
  exact roundWithAccuracy_of_roundsTo _ c h near enough

/-! ## Decimals -/

/-- The number that a decimal stands for. -/
def decimalValue (digits : Nat) (exponent : Int) : ℚ := digits * 10 ^ exponent

/-- Numbers that are rounded to floats are neither too small nor too large. -/
theorem RoundsTo.bounds {v : ℚ} (c : Canonical m e) (h : RoundsTo v m e) :
    2 ^ (-1075 : Int) ≤ v ∧ v < 2 ^ (1024 : Int) := by
  have one : (1 : ℚ) ≤ m := by exact_mod_cast c.positive
  have fits : (m : ℚ) + 1 ≤ 2 ^ (53 : Int) := by exact_mod_cast c.fits
  have unit : (0 : ℚ) < 2 ^ e := by positivity
  constructor
  · have least : (2 : ℚ) ^ (-1074 : Int) ≤ 2 ^ e := zpow_le_zpow_right₀ (by norm_num) c.least
    have half : (2 : ℚ) ^ (-1074 : Int) = 2 * 2 ^ (-1075 : Int) := by
      rw [← zpow_one_add₀ (by norm_num)]
      norm_num
    have below := h.below
    nlinarith
  · have most : (2 : ℚ) ^ e ≤ 2 ^ (971 : Int) := zpow_le_zpow_right₀ (by norm_num) c.most
    have top : (2 : ℚ) ^ (53 : Int) * 2 ^ (971 : Int) = 2 ^ (1024 : Int) := by
      rw [← zpow_add₀ (by norm_num)]
      norm_num
    calc v ≤ (m + 1 / 2) * 2 ^ e := h.above
      _ < (m + 1) * 2 ^ e := by gcongr; norm_num
      _ ≤ 2 ^ (53 : Int) * 2 ^ (971 : Int) := mul_le_mul fits most unit.le (by positivity)
      _ = 2 ^ (1024 : Int) := top

/-- The exponent of a decimal that is rounded to a float lies in the range that is computed. -/
theorem exponent_bounds {d : Nat} {x : Int} (some : d ≠ 0) (c : Canonical m e)
    (h : RoundsTo (decimalValue d x) m e) : x ≤ 2048 ∧ -(2048 + d.log2) ≤ x := by
  obtain ⟨low, high⟩ := h.bounds c
  have one : (1 : ℚ) ≤ d := by exact_mod_cast Nat.pos_of_ne_zero some
  have two : (1 : ℚ) < 2 := by norm_num
  rw [decimalValue] at low high
  rcases le_total 0 x with up | down
  · have power : (2 : ℚ) ^ x ≤ 10 ^ x := zpow_le_zpow_left₀ up (by norm_num) (by norm_num)
    have below : (2 : ℚ) ^ x < 2 ^ (1024 : Int) :=
      calc (2 : ℚ) ^ x ≤ 10 ^ x := power
        _ ≤ d * 10 ^ x := le_mul_of_one_le_left (by positivity) one
        _ < 2 ^ (1024 : Int) := high
    have bound := (zpow_lt_zpow_iff_right₀ two).1 below
    omega
  · obtain ⟨k, rfl⟩ : ∃ k : Nat, x = -k := ⟨(-x).toNat, by omega⟩
    have power : (10 : ℚ) ^ (-k : Int) ≤ 2 ^ (-k : Int) := by
      rw [zpow_neg, zpow_neg, zpow_natCast, zpow_natCast]
      exact inv_anti₀ (by positivity) (pow_le_pow_left₀ (by norm_num) (by norm_num) k)
    have bits : (d : ℚ) < 2 ^ ((d.log2 + 1 : Nat) : Int) := by
      exact_mod_cast Nat.lt_log2_self (n := d)
    have above : (2 : ℚ) ^ (-1075 : Int) < 2 ^ (((d.log2 + 1 : Nat) : Int) + -k) := by
      rw [zpow_add₀ (by norm_num)]
      have positive : (0 : ℚ) < 2 ^ (-k : Int) := by positivity
      calc (2 : ℚ) ^ (-1075 : Int) ≤ d * 10 ^ (-k : Int) := low
        _ ≤ d * 2 ^ (-k : Int) := by gcongr
        _ < 2 ^ ((d.log2 + 1 : Nat) : Int) * 2 ^ (-k : Int) := by gcongr
    have bound := (zpow_lt_zpow_iff_right₀ two).1 above
    omega

/-- A decimal is the float that its value rounds to. -/
theorem ofScientific_of_roundsTo {d : Nat} {x : Int} (some : d ≠ 0) (c : Canonical m e)
    (h : RoundsTo (decimalValue d x) m e) :
    UnpackedFloat.ofScientific Format.binary64 d x = .finite .positive m e c.positive := by
  obtain ⟨small, large⟩ := exponent_bounds some c h
  have notHuge : ¬x > 2 ^ Format.binary64.exponentBits := by
    norm_num
    exact small
  have notTiny : ¬x < -((2 ^ Format.binary64.exponentBits : Int) + d.log2) := by
    norm_num
    omega
  simp only [UnpackedFloat.ofScientific, some, notHuge, notTiny, dite_false, if_false]
  have ten (k : Nat) : ((10 ^ k : Nat) : ℚ) * 2 ^ (0 : Int) = 10 ^ k := by norm_num
  split
  case isTrue whole =>
    obtain ⟨k, rfl⟩ := Int.eq_ofNat_of_zero_le whole
    refine mul_of_roundsTo _ _ _ _ c ?_ ?_
    · have value : ((d <<< Format.binary64.mantissaBits : Nat) : ℚ) *
          2 ^ (-(Format.binary64.mantissaBits : Int)) = d := by
        rw [Nat.shiftLeft_eq, zpow_neg, zpow_natCast]
        push_cast
        field_simp
      rw [value, Int.toNat_natCast, ten]
      simpa [decimalValue] using h
    · have bits : 2 ^ 52 ≤ d <<< Format.binary64.mantissaBits := by
        rw [Nat.shiftLeft_eq]
        have : 1 ≤ d := Nat.pos_of_ne_zero some
        have width : Format.binary64.mantissaBits = 53 := rfl
        rw [width]
        omega
      exact le_trans bits (Nat.le_mul_of_pos_right _ (by positivity))
  case isFalse fraction =>
    obtain ⟨k, rfl⟩ : ∃ k : Nat, x = -k := ⟨(-x).toNat, by omega⟩
    refine div_of_roundsTo _ _ _ _ c ?_
    rw [neg_neg, Int.toNat_natCast, ten]
    have value : (d : ℚ) * 2 ^ (0 : Int) / 10 ^ k = decimalValue d (-k) := by
      rw [decimalValue, zpow_neg, zpow_natCast]
      norm_num
      rfl
    rw [value]
    exact h

/-! ## Small decimals

Digits that fit a mantissa and powers of ten that are floats are multiplied or divided as floats. -/

/-- The number of bits by which a mantissa is too short. -/
def missingBits (n : Nat) : Nat := 52 - n.log2

/-- A number with all bits filled up is canonical. -/
theorem canonical_full {n : Nat} {x : Int} (positive : 0 < n) (fits : n < 2 ^ 53)
    (low : -1000 ≤ x) (high : x ≤ 900) :
    Canonical (n * 2 ^ missingBits n) (x - missingBits n) := by
  have log : n.log2 < 53 := (Nat.log2_lt positive.ne').2 fits
  have sum : n.log2 + missingBits n = 52 := by
    unfold missingBits
    omega
  have bits : n < 2 ^ (n.log2 + 1) := Nat.lt_log2_self
  refine ⟨by positivity, ?_, by omega, by omega, .inl ?_⟩
  · calc n * 2 ^ missingBits n < 2 ^ (n.log2 + 1) * 2 ^ missingBits n :=
          Nat.mul_lt_mul_of_pos_right bits (by positivity)
      _ = 2 ^ 53 := by rw [← Nat.pow_add]; congr 1; omega
  · calc 2 ^ 52 = 2 ^ n.log2 * 2 ^ missingBits n := by rw [← Nat.pow_add, sum]
      _ ≤ n * 2 ^ missingBits n := Nat.mul_le_mul_right _ (Nat.log2_self_le positive.ne')

/-- Filling up bits changes no value. -/
theorem full_value (n : Nat) (x : Int) :
    ((n * 2 ^ missingBits n : Nat) : ℚ) * 2 ^ (x - missingBits n) = n * 2 ^ x := by
  have power : (2 : ℚ) ^ x = 2 ^ missingBits n * 2 ^ (x - missingBits n) := by
    rw [← zpow_natCast, ← zpow_add₀ (by norm_num)]
    congr 1
    omega
  rw [power]
  push_cast
  ring

/-- The float `n · 2 ^ x` for a mantissa that need not be full. -/
def shifted (n : Nat) (x : Int) (positive : 0 < n) : Float :=
  ofParts .positive (n * 2 ^ missingBits n) (x - missingBits n)
    (Nat.mul_pos positive (Nat.two_pow_pos _))

/-- A whole number that fits a mantissa is a float. -/
theorem toFloat_toUInt64 {n : Nat} (positive : 0 < n) (fits : n < 2 ^ 53) :
    n.toUInt64.toFloat = shifted n 0 positive := by
  have c := canonical_full positive fits (by norm_num : -1000 ≤ (0 : Int)) (by norm_num)
  have word : n.toUInt64.toNat = n := Nat.mod_eq_of_lt (by omega)
  have rounded : n.toUInt64.toFloat =
      .ofModel (.pack (UnpackedFloat.normalize Format.binary64 n.toUInt64.toNat 0 .positive)) :=
    rfl
  have order : compare (n : Int) 0 = .gt := Int.compare_eq_gt.2 (by omega)
  have shift : (0 - max ((n.log2 : Int) + 0 - 52) (-1074)).toNat = missingBits n := by
    have log : n.log2 < 53 := (Nat.log2_lt positive.ne').2 fits
    unfold missingBits
    omega
  have near := roundWithAccuracy_of_roundsTo .positive c (roundsTo_self _ _)
    (a := .exact) (n := n * 2 ^ missingBits n) (d := 0 - missingBits n) rfl
    (.inl (c.full.resolve_right (by unfold missingBits; omega)))
  rw [rounded, word]
  simp only [UnpackedFloat.normalize, order, Int.toNat_natCast, UnpackedFloat.round,
    targetExponent_eq, decreaseExponent, shift, Nat.shiftLeft_eq]
  rw [near]
  rfl

/-- The table of powers of ten is right. -/
theorem power_bits : ∀ k : Fin Float.exactlyRepresentablePowersOfTen.size,
    Float.exactlyRepresentablePowersOfTen[k].toBits.toNat =
      (shifted (5 ^ k.val) k.val (Nat.pow_pos (by decide))).toBits.toNat := by
  decide +kernel

/-- The powers of ten in the table are the floats that they stand for. -/
theorem power_eq {k : Nat} (small : k < Float.exactlyRepresentablePowersOfTen.size) :
    Float.exactlyRepresentablePowersOfTen[k] = shifted (5 ^ k) k (Nat.pow_pos (by decide)) :=
  ext_toBits (power_bits ⟨k, small⟩)

theorem canonical_power {k : Nat} (small : k ≤ 22) :
    Canonical (5 ^ k * 2 ^ missingBits (5 ^ k)) (k - missingBits (5 ^ k)) := by
  have fits : 5 ^ k < 2 ^ 53 :=
    lt_of_le_of_lt (Nat.pow_le_pow_right (by decide) small) (by decide)
  exact canonical_full (by positivity) fits (by omega) (by omega)

section

variable {a b : Nat} {x y : Int} {pa : 0 < a} {pb : 0 < b}
variable (ca : Canonical (a * 2 ^ missingBits a) (x - missingBits a))
variable (cb : Canonical (b * 2 ^ missingBits b) (y - missingBits b))
variable (c : Canonical m e)
include ca cb

/-- The same for quotients of numbers filled up. -/
theorem shifted_div (h : RoundsTo ((a * 2 ^ x) / (b * 2 ^ y)) m e) :
    shifted a x pa / shifted b y pb = ofParts .positive m e c.positive := by
  have quotient : shifted a x pa / shifted b y pb = .ofModel (.pack (UnpackedFloat.div
      Format.binary64 (shifted a x pa).toModel.unpack (shifted b y pb).toModel.unpack)) := rfl
  rw [quotient, shifted, shifted, unpack_ofParts _ ca, unpack_ofParts _ cb, div_of_roundsTo _ _ _ _ c]
  · rfl
  · rwa [full_value, full_value]

/-- The same for products. -/
theorem shifted_mul (enough : 2 ^ 52 ≤ a * 2 ^ missingBits a)
    (h : RoundsTo ((a * 2 ^ x) * (b * 2 ^ y)) m e) :
    shifted a x pa * shifted b y pb = ofParts .positive m e c.positive := by
  have product : shifted a x pa * shifted b y pb = .ofModel (.pack (UnpackedFloat.mul
      Format.binary64 (shifted a x pa).toModel.unpack (shifted b y pb).toModel.unpack)) := rfl
  rw [product, shifted, shifted, unpack_ofParts _ ca, unpack_ofParts _ cb, mul_of_roundsTo _ _ _ _ c]
  · rfl
  · rwa [full_value, full_value]
  · exact le_trans enough (Nat.le_mul_of_pos_right _ cb.positive)

end

/-- A decimal is read as the float that it lies at. -/
theorem float_ofScientific_of_roundsTo {d k : Nat} {down : Bool} (some : d ≠ 0)
    (c : Canonical m e) (h : RoundsTo (decimalValue d (if down then -k else k)) m e) :
    Float.ofScientific d down k = ofParts .positive m e c.positive := by
  unfold Float.ofScientific
  split
  case isTrue small =>
    obtain ⟨fits, size⟩ := small
    have positive := Nat.pos_of_ne_zero some
    have digits := canonical_full positive fits (by norm_num : -1000 ≤ (0 : Int)) (by norm_num)
    have power := canonical_power size
    have ten : ((5 ^ k : Nat) : ℚ) * 2 ^ (k : Int) = 10 ^ k := by
      rw [Nat.cast_pow, Nat.cast_ofNat, zpow_natCast, ← mul_pow]
      norm_num
    simp only [power_eq, toFloat_toUInt64 positive fits]
    cases down with
    | true =>
      rw [if_pos rfl]
      refine shifted_div digits power c ?_
      rw [zpow_zero, mul_one, ten]
      simpa [decimalValue, div_eq_mul_inv] using h
    | false =>
      rw [if_neg (by decide)]
      refine shifted_mul digits power c (digits.full.resolve_right ?_) ?_
      · unfold missingBits
        omega
      · rw [zpow_zero, mul_one, ten]
        simpa [decimalValue] using h
  case isFalse =>
    have exponent : (if down then Int.negOfNat k else Int.ofNat k) =
        (if down then -(k : Int) else k) := by
      cases down
      · rfl
      · exact Int.negOfNat_eq
    have slow := ofScientific_of_roundsTo some c h
    rw [← exponent] at slow
    exact congrArg (fun u => Float.ofModel (.pack u)) slow

/-- The digits of a decimal bound its value by powers of ten. -/
theorem decimalValue_bounds {d : Nat} (some : d ≠ 0) (x : Int) :
    (10 : ℚ) ^ ((decimalDigits d).length + x - 1) ≤ decimalValue d x ∧
      decimalValue d x < 10 ^ ((decimalDigits d).length + x) := by
  have width : 0 < (decimalDigits d).length := Nat.length_toDigits_pos
  obtain ⟨n, length⟩ : ∃ n, (decimalDigits d).length = n + 1 :=
    ⟨(decimalDigits d).length - 1, by omega⟩
  have high : d < 10 ^ (n + 1) :=
    (Nat.length_toDigits_le_iff (by decide) (by omega)).1 length.le
  have low : 10 ^ n ≤ d := by
    by_contra small
    rcases Nat.eq_zero_or_pos n with rfl | positive
    · omega
    · have short := (Nat.length_toDigits_le_iff (b := 10) (by decide) positive).2 (not_le.1 small)
      rw [decimalDigits] at length
      omega
  have unit : (0 : ℚ) < 10 ^ x := by positivity
  rw [length, decimalValue]
  constructor
  · have exponent : ((n + 1 : Nat) : Int) + x - 1 = (n : Int) + x := by omega
    rw [exponent, zpow_add₀ (by norm_num), zpow_natCast]
    gcongr
    exact_mod_cast low
  · rw [zpow_add₀ (by norm_num), zpow_natCast]
    gcongr
    exact_mod_cast high

theorem two_pow_lt_ten_pow : (2 : ℚ) ^ (1200 : Int) < 10 ^ (400 : Int) := by
  have power : (2 : ℚ) ^ (3 * 400) < 10 ^ 400 := by
    rw [pow_mul]
    exact pow_lt_pow_left₀ (by norm_num) (by norm_num) (by norm_num)
  rw [← zpow_natCast, ← zpow_natCast] at power
  exact power

end Dialogue.Number

namespace Dialogue.Decimal

open Number

def value (d : Decimal) : ℚ := decimalValue d.digits d.exponent

/-- A decimal is read as the float that it lies at, however it is written. -/
theorem toFloat_of_roundsTo {d : Decimal} {m : Nat} {e : Int} (c : Canonical m e)
    (h : RoundsTo d.value m e) : d.toFloat = ofParts .positive m e c.positive := by
  have some : d.digits ≠ 0 := by
    intro zero
    have positive := h.pos c
    simp [value, decimalValue, zero] at positive
  obtain ⟨low, high⟩ := h.bounds c
  obtain ⟨least, most⟩ := decimalValue_bounds some d.exponent
  have ten : (1 : ℚ) < 10 := by norm_num
  have notTiny : ¬((decimalDigits d.digits).length : Int) + d.exponent < -400 := by
    intro tiny
    have power : (10 : ℚ) ^ ((decimalDigits d.digits).length + d.exponent) ≤ 10 ^ (-400 : Int) :=
      zpow_le_zpow_right₀ ten.le (by omega)
    have bound : (10 : ℚ) ^ (-400 : Int) < 2 ^ (-1075 : Int) := by
      rw [zpow_neg, zpow_neg]
      refine inv_strictAnti₀ (by positivity) (lt_of_le_of_lt ?_ two_pow_lt_ten_pow)
      exact zpow_le_zpow_right₀ (by norm_num) (by norm_num)
    exact absurd (low.trans_lt most) (not_lt.2 (power.trans bound.le))
  have notHuge : ¬400 < ((decimalDigits d.digits).length : Int) + d.exponent := by
    intro huge
    have power : (10 : ℚ) ^ (400 : Int) ≤ 10 ^ ((decimalDigits d.digits).length + d.exponent - 1) :=
      zpow_le_zpow_right₀ ten.le (by omega)
    have bound : (2 : ℚ) ^ (1024 : Int) < 10 ^ (400 : Int) :=
      lt_of_le_of_lt (zpow_le_zpow_right₀ (by norm_num) (by norm_num)) two_pow_lt_ten_pow
    exact absurd (least.trans_lt high) (not_lt.2 (bound.le.trans power))
  unfold toFloat
  simp only [some, notTiny, notHuge, or_self, if_false]
  split
  case isTrue up =>
    refine float_ofScientific_of_roundsTo some c ?_
    rw [if_neg (by decide), Int.toNat_of_nonneg up]
    exact h
  case isFalse down =>
    refine float_ofScientific_of_roundsTo some c ?_
    rw [if_pos rfl, Int.toNat_of_nonneg (by omega), neg_neg]
    exact h

end Dialogue.Decimal
