import Dialogue.Text.Printable

/-!
# Quoted text

A text is quoted with single quotes, or with double quotes when it holds a single quote and no
double one. What is not printable is written as an escape. Texts are given as code points, since a
quoted text may hold surrogates that pair with nothing.
-/

namespace Dialogue.Text

def hexDigit (n : Nat) : Char := "0123456789abcdef".toList.getD n '0'

/-- The lowest `width` hexadecimal digits of a number. -/
def hexDigits : (width : Nat) → Nat → List Char
  | 0, _ => []
  | width + 1, n => hexDigits width (n / 16) ++ [hexDigit (n % 16)]

/-- One code point inside quotes of the kind `quote`. -/
def quoteCode (quote : Char) (c : Nat) : List Char :=
  if c = quote.toNat ∨ c = 0x5c then ['\\', Char.ofNat c]
  else if c = 9 then ['\\', 't']
  else if c = 10 then ['\\', 'n']
  else if c = 13 then ['\\', 'r']
  else if isPrintable c then [Char.ofNat c]
  else if c < 0x100 then '\\' :: 'x' :: hexDigits 2 c
  else if c < 0x10000 then '\\' :: 'u' :: hexDigits 4 c
  else '\\' :: 'U' :: hexDigits 8 c

def quoteFor (codes : List Nat) : Char :=
  if codes.contains 0x27 && !codes.contains 0x22 then '"' else '\''

def quoteCodes (codes : List Nat) : List Char :=
  let q := quoteFor codes
  q :: codes.flatMap (quoteCode q) ++ [q]

def quoted (s : String) : String := String.ofList (quoteCodes (s.toList.map Char.toNat))

end Dialogue.Text
