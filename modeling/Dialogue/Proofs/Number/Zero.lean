import Dialogue.Number.Decimal
import Mathlib

/-!
# The two zeros

There are two floats that equal zero. They are one as whole numbers, and adding either of them to a
float gives the same unless the sum is a zero again. A float equals itself unless it is no number.
-/

namespace Dialogue.Number

open Float.Model (UnpackedFloat Format)

theorem unpack_zero : (0.0 : Float).toModel.unpack = .zero .positive := rfl

theorem unpack_negZero : (-0.0 : Float).toModel.unpack = .zero .negative := rfl

/-- Only the two zeros compare as equal to zero. -/
theorem eq_zero_or_negZero {x : Float} (zero : (x == 0.0) = true) : x = 0.0 ∨ x = -0.0 := by
  obtain ⟨-, -, same | ⟨positive, -⟩ | ⟨negative, -⟩⟩ := Float.beq_iff_ne_nan_and_eq.1 zero
  · exact .inl same
  · exact .inl (positive.trans rfl)
  · exact .inr (negative.trans rfl)

theorem wholeValue?_of_beq_zero {x : Float} (zero : (x == 0.0) = true) :
    wholeValue? x = some 0 := by
  obtain rfl | rfl := eq_zero_or_negZero zero <;> rfl

/-- Both zeros have the same sum with a float, unless both sums are zeros. -/
theorem zero_add_eq_or (y : Float) :
    (0.0 : Float) + y = -0.0 + y ∨
      ((0.0 : Float) + y == 0.0) = true ∧ ((-0.0 : Float) + y == 0.0) = true := by
  have sum (x : Float) : x + y = .ofModel (.pack
      (UnpackedFloat.add Format.binary64 x.toModel.unpack y.toModel.unpack)) := rfl
  rw [sum, sum, unpack_zero, unpack_negZero]
  cases y.toModel.unpack with
  | infinity s => exact .inl rfl
  | notANumber => exact .inl rfl
  | finite s m e p => exact .inl rfl
  | zero s => cases s <;> exact .inr ⟨rfl, rfl⟩

/-- A float equals itself unless it is not a number. -/
theorem beq_self {x : Float} (number : x.isNaN = false) : (x == x) = true := by
  rw [Float.beq_self_iff]
  simpa using number

end Dialogue.Number
