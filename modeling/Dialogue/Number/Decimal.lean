/-!
# Decimals and floats

A finite float is a dyadic number and has a shortest decimal that reads back to it.
`Decimal.toFloat` reads a decimal to the nearest float, `Decimal.shortest` goes the other way.
-/

namespace Dialogue

/-- The number `digits · 10 ^ exponent`. -/
structure Decimal where
  digits : Nat
  exponent : Int
deriving DecidableEq, Repr

/-- The number `mantissa · 2 ^ exponent`. -/
structure Dyadic where
  mantissa : Nat
  exponent : Int
deriving DecidableEq, Repr

namespace Number

def decimalDigits (n : Nat) : List Char := Nat.toDigits 10 n

def isNegative (x : Float) : Bool := x.toBits >>> 63 == 1

/-- The mantissa of a float that is not subnormal has this bit, which is not stored. -/
def hiddenBit : Nat := 0x10000000000000

/-- The magnitude of a finite float. -/
def magnitude (x : Float) : Dyadic :=
  let fraction := (x.toBits &&& 0xfffffffffffff).toNat
  let biased := ((x.toBits >>> 52) &&& 0x7ff).toNat
  if biased = 0 then ⟨fraction, -1074⟩ else ⟨fraction + hiddenBit, biased - 1075⟩

/-- The value of a float that is a whole number. -/
def wholeValue? (x : Float) : Option Int :=
  if !x.isFinite then none
  else
    let d := magnitude x
    let sign : Int := if isNegative x then -1 else 1
    if 0 ≤ d.exponent then some (sign * (d.mantissa <<< d.exponent.toNat : Nat))
    else
      let unit := 1 <<< (-d.exponent).toNat
      if d.mantissa % unit = 0 then some (sign * (d.mantissa / unit : Nat)) else none

/-- The nearest float, or none when it would be infinite. -/
def ofInt? (n : Int) : Option Float :=
  let x := Float.ofInt n
  if x.isFinite then some x else none

def infinity : Float := 1.0 / 0.0
def notANumber : Float := 0.0 / 0.0

end Number

namespace Decimal

/-- The nearest float; exponents far outside the range of floats are decided by size alone. -/
def toFloat (d : Decimal) : Float :=
  let top : Int := (Number.decimalDigits d.digits).length + d.exponent
  if d.digits = 0 ∨ top < -400 then 0.0
  else if 400 < top then Number.infinity
  else if 0 ≤ d.exponent then Float.ofScientific d.digits false d.exponent.toNat
  else Float.ofScientific d.digits true (-d.exponent).toNat

/-- The decimal exponent of the leading digit of `num / den`. -/
def leadingExponent (num den : Nat) : Int :=
  if den ≤ num then (Number.decimalDigits (num / den)).length - 1
  else -(Number.decimalDigits ((den + num - 1) / num - 1)).length

/-- The decimal of `n` digits that lies nearest to the value among those that read back to it, if
there is one. The value and the ends of its interval of rounding have the common denominator
`den`. -/
def onGrid? (num low high den : Nat) (closed : Bool) (lead : Int) (n : Nat) : Option Decimal :=
  let exponent := lead + 1 - n
  let up := if exponent < 0 then Nat.pow 10 (-exponent).toNat else 1
  let unit := (if exponent < 0 then 1 else Nat.pow 10 exponent.toNat) * den
  let below := num * up / unit
  let hits (d : Nat) : Bool :=
    if closed then low * up ≤ d * unit && d * unit ≤ high * up
    else low * up < d * unit && d * unit < high * up
  let nearerBelow :=
    let left := num * up - below * unit
    let right := (below + 1) * unit - num * up
    left < right || (left = right && below % 2 = 0)
  match hits below, hits (below + 1) with
  | true, true => some ⟨if nearerBelow then below else below + 1, exponent⟩
  | true, false => some ⟨below, exponent⟩
  | false, true => some ⟨below + 1, exponent⟩
  | false, false => none

def trimZerosFuel : Nat → Decimal → Decimal
  | 0, d => d
  | fuel + 1, d =>
    if d.digits ≠ 0 ∧ d.digits % 10 = 0 then trimZerosFuel fuel ⟨d.digits / 10, d.exponent + 1⟩
    else d

/-- The decimal with the fewest digits that reads back to the magnitude of a finite float, and the
nearest of those. Seventeen digits always suffice. -/
def shortest (x : Float) : Decimal :=
  let m := (Number.magnitude x).mantissa
  if m = 0 then ⟨0, 0⟩
  else
    let q := (Number.magnitude x).exponent - 2
    let scale := if 0 ≤ q then 1 <<< q.toNat else 1
    let den := if 0 ≤ q then 1 else 1 <<< (-q).toNat
    let gapBelow := if m = Number.hiddenBit ∧ q + 2 ≠ -1074 then 1 else 2
    let num := 4 * m * scale
    let low := (4 * m - gapBelow) * scale
    let high := (4 * m + 2) * scale
    let lead := leadingExponent num den
    let found := (List.range 17).findSome? fun n =>
      onGrid? num low high den (m % 2 = 0) lead (n + 1)
    trimZerosFuel 20 (found.getD ⟨0, 0⟩)

end Decimal
end Dialogue
