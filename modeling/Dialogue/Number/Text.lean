import Dialogue.Number.Decimal

/-!
# Numbers as text

Floats are written with the fewest digits that read back, positionally while the leading digit
stands between the fifth place after the point and the sixteenth before it, and with an exponent of
a sign and at least two digits otherwise. A float always shows a point or an exponent.
-/

namespace Dialogue.Number

def intChars (n : Int) : List Char :=
  if n < 0 then '-' :: decimalDigits n.natAbs else decimalDigits n.natAbs

def padZero (cs : List Char) : List Char := if cs.length < 2 then '0' :: cs else cs

/-- The digits `cs` with the point after the first `point` of them. -/
def placePoint (cs : List Char) (point : Int) : List Char :=
  if point ≤ 0 then '0' :: '.' :: List.replicate (-point).toNat '0' ++ cs
  else
    let n := point.toNat
    if cs.length ≤ n then cs ++ List.replicate (n - cs.length) '0' ++ ['.', '0']
    else cs.take n ++ '.' :: cs.drop n

def exponentForm (cs : List Char) (lead : Int) : List Char :=
  let body := match cs with
    | [] => []
    | [c] => [c]
    | c :: rest => c :: '.' :: rest
  body ++ 'e' :: (if lead < 0 then '-' else '+') :: padZero (decimalDigits lead.natAbs)

/-- A positive decimal, or zero. -/
def decimalChars (d : Decimal) : List Char :=
  let cs := decimalDigits d.digits
  let point := cs.length + d.exponent
  if d.digits = 0 then ['0', '.', '0']
  else if -4 < point ∧ point ≤ 16 then placePoint cs point
  else exponentForm cs (point - 1)

/-- How a float is written: the names of the values that are not numbers differ by format. -/
structure FloatNames where
  infinite : String
  undefined : String

def floatChars (names : FloatNames) (x : Float) : List Char :=
  if x.isNaN then names.undefined.toList
  else
    let body := if x.isInf then names.infinite.toList else decimalChars (Decimal.shortest x)
    if isNegative x then '-' :: body else body

/-- Names in lower case, as expressions show them. -/
def plainNames : FloatNames := ⟨"inf", "nan"⟩

/-- Names as they stand in exchanged documents. -/
def documentNames : FloatNames := ⟨"Infinity", "NaN"⟩

end Dialogue.Number
