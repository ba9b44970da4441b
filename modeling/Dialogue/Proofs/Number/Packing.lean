import Dialogue.Number.Decimal
import Dialogue.Proofs.Number.Rounding

/-!
# The bits of floats

The sign, the exponent and the mantissa of a float stand in its bits, and a finite float is made of
them again. So a finite float is known by its sign and its magnitude.
-/

namespace Dialogue.Number

open Float.Model (Format UnpackedFloat totalExponent)
open Float.Model.UnpackedFloat

variable {m : Nat} {e : Int}

/-- The float with a sign, a mantissa and an exponent. -/
def ofParts (s : Sign) (m : Nat) (e : Int) (positive : 0 < m) : Float :=
  .ofModel (.pack (.finite s m e positive))

/-- A float is packed as its sign, its exponent and its mantissa. -/
theorem toNat_packComponents (s : Sign) (ex : BitVec 11) (ma : BitVec 52) :
    (packComponents Format.binary64 s ex ma).toNat =
      s.toBitVec.toNat * 2 ^ 63 + ex.toNat * 2 ^ 52 + ma.toNat := by
  have inner : (s.toBitVec ++ ex).toNat = s.toBitVec.toNat * 2 ^ 11 + ex.toNat := by
    rw [BitVec.toNat_append, ← Nat.shiftLeft_add_eq_or_of_lt ex.isLt, Nat.shiftLeft_eq]
  rw [packComponents, BitVec.toNat_append, ← Nat.shiftLeft_add_eq_or_of_lt ma.isLt,
    Nat.shiftLeft_eq, inner]
  ring

/-- The stored exponent and mantissa of a canonical form. -/
theorem pack_canonical (s : Sign) (c : Canonical m e) :
    UnpackedFloat.pack Format.binary64 (.finite s m e c.positive) =
      packComponents Format.binary64 s
        (if 2 ^ 52 ≤ m then BitVec.ofNat 11 (e + 1075).toNat else 0#11) (BitVec.ofNat 52 m) := by
  have least := c.least
  have most := c.most
  have bias : (e + Format.binary64.exponentBias + (52 : Nat)).toNat = (e + 1075).toNat := by
    have value : Format.binary64.exponentBias = 1023 := by decide
    rw [value]
    omega
  have range : ¬2 ^ 11 ≤ (e + 1075).toNat + 1 := by omega
  have width : (m.log2 + 1 = Format.binary64.mantissaBits) = (2 ^ 52 ≤ m) := by
    have bits : Format.binary64.mantissaBits = 53 := by decide
    have low := Nat.le_log2 c.positive.ne' (k := 52)
    have high := (Nat.log2_lt c.positive.ne').2 c.fits
    rw [bits]
    exact propext ⟨fun _ => low.1 (by omega), fun full => by have := low.2 full; omega⟩
  simp only [UnpackedFloat.pack, bias, range, if_false, width]
  split <;> rfl

@[simp] theorem unpackSign_packComponents (s : Sign) (ex : BitVec 11) (ma : BitVec 52) :
    unpackSign (packComponents Format.binary64 s ex ma) = s.toBitVec := by
  refine BitVec.eq_of_toNat_eq ?_
  have bits : (unpackSign (packComponents Format.binary64 s ex ma)).toNat =
      (packComponents Format.binary64 s ex ma).toNat / 2 ^ 63 % 2 := by
    simp [unpackSign, BitVec.extractLsb, Nat.shiftRight_eq_div_pow]
  have sign := s.toBitVec.isLt
  have exponent := ex.isLt
  have mantissa := ma.isLt
  rw [bits, toNat_packComponents]
  omega

/-- Parts of a normal float are unpacked with the leading bit. -/
theorem unpack_packComponents_normal (s : Sign) {ex : BitVec 11} (ma : BitVec 52)
    (notZero : ex ≠ 0#_) (notTop : ex ≠ -1#_) (positive : 0 < m)
    (mantissa : 2 ^ 52 + ma.toNat = m) (exponent : (ex.toNat : Int) - 1075 = e) :
    UnpackedFloat.unpack Format.binary64 (packComponents Format.binary64 s ex ma) =
      .finite s m e positive := by
  have sign : Sign.ofBitVec s.toBitVec = s := by cases s <;> rfl
  have bias : Format.binary64.exponentBias + ((52 : Nat) : Int) = 1075 := by decide
  have led : (1#1 ++ ma).toNat = m := by
    rw [BitVec.toNat_append, ← Nat.shiftLeft_add_eq_or_of_lt ma.isLt, ← mantissa]
    simp
  unfold UnpackedFloat.unpack
  simp only [unpackMantissa_packComponents, unpackExponent_packComponents,
    unpackSign_packComponents, sign]
  rw [if_neg notTop, if_neg notZero]
  simp only [led, bias, exponent]

/-- Parts of a small float are unpacked without it. -/
theorem unpack_packComponents_subnormal (s : Sign) {ma : BitVec 52} (positive : 0 < m)
    (mantissa : ma.toNat = m) :
    UnpackedFloat.unpack Format.binary64 (packComponents Format.binary64 s 0#11 ma) =
      .finite s m (-1074) positive := by
  have sign : Sign.ofBitVec s.toBitVec = s := by cases s <;> rfl
  have notTop : 0#11 ≠ -1#_ := by decide
  have notZero : ma ≠ 0#_ := by
    rintro rfl
    exact positive.ne mantissa
  unfold UnpackedFloat.unpack
  simp only [unpackMantissa_packComponents, unpackExponent_packComponents,
    unpackSign_packComponents, sign]
  rw [if_neg notTop, if_pos trivial, dif_neg notZero]
  simp only [mantissa]
  rfl

/-- A canonical form is unpacked as it was packed. -/
theorem unpack_ofParts (s : Sign) (c : Canonical m e) :
    (ofParts s m e c.positive).toModel.unpack = .finite s m e c.positive := by
  have least := c.least
  have most := c.most
  have fits := c.fits
  have packed : (ofParts s m e c.positive).toModel.unpack =
      UnpackedFloat.unpack Format.binary64
        (UnpackedFloat.pack Format.binary64 (.finite s m e c.positive)) := rfl
  rw [packed, pack_canonical s c]
  by_cases full : 2 ^ 52 ≤ m
  · rw [if_pos full]
    have code : (BitVec.ofNat 11 (e + 1075).toNat).toNat = (e + 1075).toNat := by
      rw [BitVec.toNat_ofNat, Nat.mod_eq_of_lt (by omega)]
    have ne {x : BitVec 11} (other : (e + 1075).toNat ≠ x.toNat) :
        BitVec.ofNat 11 (e + 1075).toNat ≠ x := by
      rintro rfl
      exact other code.symm
    refine unpack_packComponents_normal s _ (ne ?_) (ne ?_) c.positive ?_ ?_
    · rw [BitVec.toNat_ofNat]
      omega
    · have top : (-1#11).toNat = 2047 := by decide
      rw [top]
      omega
    · rw [BitVec.toNat_ofNat]
      omega
    · rw [code]
      omega
  · obtain rfl : e = -1074 := c.full.resolve_left full
    rw [if_neg full]
    exact unpack_packComponents_subnormal s c.positive
      (by rw [BitVec.toNat_ofNat, Nat.mod_eq_of_lt (by omega)])

/-! ## The magnitude of a float -/

def signOf (x : Float) : Sign := if isNegative x then .negative else .positive

/-- A float is told by its bits. -/
theorem ext_toBits {x y : Float} (same : x.toBits.toNat = y.toBits.toNat) : x = y := by
  obtain ⟨a, _⟩ := x
  obtain ⟨b, _⟩ := y
  obtain rfl : a = b := UInt64.toNat_inj.1 same
  rfl

theorem toNat_unpackExponent (b : BitVec 64) :
    (@unpackExponent Format.binary64 b).toNat = b.toNat / 2 ^ 52 % 2 ^ 11 := by
  simp [unpackExponent, BitVec.extractLsb, Nat.shiftRight_eq_div_pow]

theorem toNat_unpackMantissa (b : BitVec 64) :
    (@unpackMantissa Format.binary64 b).toNat = b.toNat % 2 ^ 52 := by
  simp [unpackMantissa, BitVec.extractLsb]

variable {x : Float}

theorem toNat_fraction : (x.toBits &&& 0xfffffffffffff).toNat = x.toBits.toNat % 2 ^ 52 := by
  rw [UInt64.toNat_and]
  exact Nat.and_two_pow_sub_one_eq_mod _ 52

theorem toNat_biased : ((x.toBits >>> 52) &&& 0x7ff).toNat = x.toBits.toNat / 2 ^ 52 % 2 ^ 11 := by
  have shift : (52 : UInt64).toNat % 64 = 52 := rfl
  rw [UInt64.toNat_and, UInt64.toNat_shiftRight, shift, Nat.shiftRight_eq_div_pow]
  exact Nat.and_two_pow_sub_one_eq_mod _ 11

theorem toNat_sign : (signOf x).toBitVec.toNat = x.toBits.toNat / 2 ^ 63 := by
  have shift : (x.toBits >>> 63).toNat = x.toBits.toNat / 2 ^ 63 := by
    have amount : (63 : UInt64).toNat % 64 = 63 := rfl
    rw [UInt64.toNat_shiftRight, amount, Nat.shiftRight_eq_div_pow]
  have range : x.toBits.toNat < 2 ^ 64 := x.toBits.toNat_lt
  have sign : isNegative x = decide (x.toBits.toNat / 2 ^ 63 = 1) := by
    rw [isNegative, ← shift]
    exact decide_eq_decide.2 UInt64.toNat_inj.symm
  unfold signOf
  rw [sign]
  by_cases negative : x.toBits.toNat / 2 ^ 63 = 1
  · rw [negative]
    rfl
  · have zero : x.toBits.toNat / 2 ^ 63 = 0 := by omega
    rw [zero]
    rfl

/-- The exponent of a finite float is not the greatest. -/
theorem biased_lt (finite : x.isFinite) : x.toBits.toNat / 2 ^ 52 % 2 ^ 11 < 2047 := by
  have code : (@unpackExponent Format.binary64 x.toBits.toBitVec).toNat =
      x.toBits.toNat / 2 ^ 52 % 2 ^ 11 := toNat_unpackExponent _
  by_contra top
  have all : @unpackExponent Format.binary64 x.toBits.toBitVec = -1#11 := by
    refine BitVec.eq_of_toNat_eq ?_
    rw [code]
    have most : (-1#11).toNat = 2047 := by decide
    omega
  have unpacked : x.isFinite = (UnpackedFloat.unpack Format.binary64 x.toBits.toBitVec).isFinite :=
    rfl
  rw [unpacked] at finite
  unfold UnpackedFloat.unpack at finite
  simp only [all, if_true] at finite
  split at finite <;> cases finite

/-- The size of a float by its bits. -/
theorem magnitude_eq : magnitude x =
    if x.toBits.toNat / 2 ^ 52 % 2 ^ 11 = 0 then ⟨x.toBits.toNat % 2 ^ 52, -1074⟩
    else ⟨x.toBits.toNat % 2 ^ 52 + 2 ^ 52, (x.toBits.toNat / 2 ^ 52 % 2 ^ 11 : Nat) - 1075⟩ := by
  have hidden : hiddenBit = 2 ^ 52 := by decide
  simp only [magnitude, toNat_fraction, toNat_biased, hidden]

/-- A finite float other than zero has a canonical size. -/
theorem canonical_magnitude (finite : x.isFinite) (some : (magnitude x).mantissa ≠ 0) :
    Canonical (magnitude x).mantissa (magnitude x).exponent := by
  have top := biased_lt finite
  have fraction : x.toBits.toNat % 2 ^ 52 < 2 ^ 52 := Nat.mod_lt _ (by positivity)
  have positive := Nat.pos_of_ne_zero some
  revert positive
  rw [magnitude_eq]
  split
  · intro positive
    exact ⟨positive, by dsimp only; omega, by norm_num, by norm_num, .inr rfl⟩
  · intro positive
    dsimp only at positive ⊢
    exact ⟨positive, by omega, by omega, by omega, .inl (by omega)⟩

/-- A finite float other than zero is made of its sign and its magnitude. -/
theorem eq_ofParts (finite : x.isFinite) (some : (magnitude x).mantissa ≠ 0) :
    x = ofParts (signOf x) (magnitude x).mantissa (magnitude x).exponent
      (canonical_magnitude finite some).positive := by
  have c := canonical_magnitude finite some
  have bits : (ofParts (signOf x) (magnitude x).mantissa (magnitude x).exponent
      c.positive).toBits.toNat =
      (UnpackedFloat.pack Format.binary64 (.finite (signOf x) (magnitude x).mantissa
        (magnitude x).exponent c.positive)).toNat := rfl
  have range : x.toBits.toNat < 2 ^ 64 := x.toBits.toNat_lt
  have top := biased_lt finite
  refine ext_toBits ?_
  rw [bits, pack_canonical _ c, toNat_packComponents, toNat_sign, BitVec.toNat_ofNat]
  rw [magnitude_eq] at c ⊢
  split
  · have low : ¬2 ^ 52 ≤ x.toBits.toNat % 2 ^ 52 := by omega
    simp only [low, if_false, BitVec.toNat_ofNat]
    omega
  · have high : 2 ^ 52 ≤ x.toBits.toNat % 2 ^ 52 + 2 ^ 52 := by omega
    simp only [high, if_true, BitVec.toNat_ofNat]
    omega

/-! ## Signs -/

theorem neg_ofParts (c : Canonical m e) :
    -ofParts .positive m e c.positive = ofParts .negative m e c.positive := by
  have negated : -ofParts .positive m e c.positive =
      .ofModel (.pack (ofParts .positive m e c.positive).toModel.unpack.neg) := rfl
  rw [negated, unpack_ofParts .positive c]
  rfl

/-- A finite float that is a zero is one of the two. -/
theorem eq_zero_of_magnitude (zero : (magnitude x).mantissa = 0) :
    x = if isNegative x then -0.0 else 0.0 := by
  have range : x.toBits.toNat < 2 ^ 64 := x.toBits.toNat_lt
  have sign := toNat_sign (x := x)
  have low : x.toBits.toNat % 2 ^ 63 = 0 := by
    rw [magnitude_eq] at zero
    split at zero <;> dsimp only at zero <;> omega
  have positiveZero : (0.0 : Float).toBits.toNat = 0 := rfl
  have negativeZero : (-0.0 : Float).toBits.toNat = 2 ^ 63 := rfl
  refine ext_toBits ?_
  unfold signOf at sign
  split
  case isTrue negative =>
    rw [if_pos negative] at sign
    have one : Sign.negative.toBitVec.toNat = 1 := rfl
    omega
  case isFalse positive =>
    rw [if_neg positive] at sign
    have none : Sign.positive.toBitVec.toNat = 0 := rfl
    omega

/-! ## Floats that are not finite -/

/-- All that is not a number is one float. -/
theorem eq_notANumber (undefined : x.isNaN) : x = notANumber := by
  rw [Float.isNaN_eq_decide_eq_nan, decide_eq_true_eq] at undefined
  exact undefined.trans rfl

theorem isFinite_of_not (number : x.isNaN = false) (bounded : x.isInf = false) : x.isFinite := by
  have unpacked : x.isFinite = x.toModel.unpack.isFinite := rfl
  have undefined : x.isNaN = x.toModel.unpack.isNaN := rfl
  have infinite : x.isInf = x.toModel.unpack.isInf := rfl
  rw [undefined] at number
  rw [infinite] at bounded
  rw [unpacked]
  generalize x.toModel.unpack = y at number bounded ⊢
  cases y with
  | notANumber => cases number
  | infinity => cases bounded
  | finite => rfl
  | zero => rfl

theorem not_of_isFinite (finite : x.isFinite) : x.isNaN = false ∧ x.isInf = false := by
  have unpacked : x.isFinite = x.toModel.unpack.isFinite := rfl
  have undefined : x.isNaN = x.toModel.unpack.isNaN := rfl
  have infinite : x.isInf = x.toModel.unpack.isInf := rfl
  rw [unpacked] at finite
  rw [undefined, infinite]
  generalize x.toModel.unpack = y at finite ⊢
  cases y with
  | notANumber => cases finite
  | infinity => cases finite
  | finite => exact ⟨rfl, rfl⟩
  | zero => exact ⟨rfl, rfl⟩

/-- An infinite float is one of the two. -/
theorem eq_infinity (infinite : x.isInf) : x = if isNegative x then -infinity else infinity := by
  have unpacked : x.isInf = (UnpackedFloat.unpack Format.binary64 x.toBits.toBitVec).isInf := rfl
  have exponent := toNat_unpackExponent x.toBits.toBitVec
  have mantissa := toNat_unpackMantissa x.toBits.toBitVec
  have range : x.toBits.toNat < 2 ^ 64 := x.toBits.toNat_lt
  have sign := toNat_sign (x := x)
  have low : x.toBits.toNat % 2 ^ 63 = 2047 * 2 ^ 52 := by
    rw [unpacked] at infinite
    unfold UnpackedFloat.unpack at infinite
    dsimp only at infinite
    split at infinite
    case isTrue top =>
      split at infinite
      case isTrue none =>
        have all : x.toBits.toNat / 2 ^ 52 % 2 ^ 11 = 2047 :=
          exponent.symm.trans (congrArg BitVec.toNat top)
        have zero : x.toBits.toNat % 2 ^ 52 = 0 := mantissa.symm.trans (congrArg BitVec.toNat none)
        omega
      case isFalse => cases infinite
    case isFalse =>
      split at infinite
      · split at infinite <;> cases infinite
      · cases infinite
  have positive : infinity.toBits.toNat = 2047 * 2 ^ 52 := rfl
  have negative : (-infinity).toBits.toNat = 2 ^ 63 + 2047 * 2 ^ 52 := rfl
  refine ext_toBits ?_
  unfold signOf at sign
  split
  case isTrue below =>
    rw [if_pos below] at sign
    have one : Sign.negative.toBitVec.toNat = 1 := rfl
    omega
  case isFalse above =>
    rw [if_neg above] at sign
    have none : Sign.positive.toBitVec.toNat = 0 := rfl
    omega

end Dialogue.Number
