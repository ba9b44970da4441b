import Dialogue.Literal.Basic
import Dialogue.Number.Text
import Dialogue.Text.Quote

/-!
# Writing literals

The expression that a literal is shown as. A tuple of one item keeps its comma, a complex number is
a sum in parentheses unless its real part is zero.
-/

namespace Dialogue.Literal

/-- A part of a complex number; whole numbers show no fraction. -/
def partChars (x : Float) : List Char :=
  let cs := Number.floatChars Number.plainNames x
  if cs.drop (cs.length - 2) = ['.', '0'] then cs.take (cs.length - 2) else cs

def complexChars (z : Complex) : List Char :=
  let im := partChars z.im ++ ['j']
  if z.re == 0.0 && !Number.isNegative z.re then im
  else
    let sign := if im.head? = some '-' then [] else ['+']
    '(' :: partChars z.re ++ sign ++ im ++ [')']

def byteChars (quote : Char) (b : Nat) : List Char :=
  if b < 0x80 then Text.quoteCode quote b else '\\' :: 'x' :: Text.hexDigits 2 b

def bytesChars (bs : List Nat) : List Char :=
  let q := Text.quoteFor bs
  'b' :: q :: bs.flatMap (byteChars q) ++ [q]

def separated : List (List Char) → List Char
  | [] => []
  | [cs] => cs
  | cs :: rest => cs ++ ',' :: ' ' :: separated rest

mutual

def chars : Literal → List Char
  | .null => "None".toList
  | .bool b => if b then "True".toList else "False".toList
  | .int n => Number.intChars n
  | .float x => Number.floatChars Number.plainNames x
  | .complex z => complexChars z
  | .text codes => Text.quoteCodes codes
  | .bytes bs => bytesChars bs
  | .list xs => '[' :: separated (itemChars xs) ++ [']']
  | .tuple [] => ['(', ')']
  | .tuple [x] => '(' :: chars x ++ [',', ')']
  | .tuple xs => '(' :: separated (itemChars xs) ++ [')']
  | .set [] => "set()".toList
  | .set xs => '{' :: separated (itemChars xs) ++ ['}']
  | .dict es => '{' :: separated (entryChars es) ++ ['}']

def itemChars : List Literal → List (List Char)
  | [] => []
  | x :: xs => chars x :: itemChars xs

def entryChars : List (Literal × Literal) → List (List Char)
  | [] => []
  | (k, x) :: es => (chars k ++ ':' :: ' ' :: chars x) :: entryChars es

end

end Dialogue.Literal
