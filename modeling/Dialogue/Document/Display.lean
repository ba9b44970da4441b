import Dialogue.Document.Basic
import Dialogue.Number.Text
import Dialogue.Text.Quote

/-!
# Documents as text

`Document.display` is the text a document stands for inside a message, an identifier or a label:
texts as they are, everything else in the notation of expressions.
-/

namespace Dialogue

namespace Moment

def padded (width n : Nat) : List Char :=
  let cs := Number.decimalDigits n
  List.replicate (width - cs.length) '0' ++ cs

def offsetChars (seconds : Int) : List Char :=
  let n := seconds.natAbs
  (if seconds < 0 then '-' else '+') :: padded 2 (n / 3600) ++ ':' :: padded 2 (n / 60 % 60) ++
    (if n % 60 = 0 then [] else ':' :: padded 2 (n % 60))

/-- The international form, with `separator` between the day and the time. -/
def chars (separator : Char) (m : Moment) : List Char :=
  padded 4 m.year ++ '-' :: padded 2 m.month ++ '-' :: padded 2 m.day ++
    (match m.time with
      | none => []
      | some (hour, minute, second, micro) =>
        separator :: padded 2 hour ++ ':' :: padded 2 minute ++ ':' :: padded 2 second ++
          (if micro = 0 then [] else '.' :: padded 6 micro)) ++
    (match m.offset with
      | none => []
      | some seconds => offsetChars seconds)

end Moment

namespace Scalar

/-- Code points of surrogates cannot be shown and come out as replacement characters. -/
def codeChar (c : Nat) : Char := if c.isValidChar then Char.ofNat c else '\ufffd'

def displayChars : Scalar → List Char
  | .null => "None".toList
  | .bool b => if b then "True".toList else "False".toList
  | .int n => Number.intChars n
  | .float x => Number.floatChars Number.plainNames x
  | .text s => s.toList
  | .unpaired codes => codes.map codeChar
  | .date m => m.chars ' '

/-- As `displayChars`, with texts in quotes. -/
def notationChars : Scalar → List Char
  | .text s => Text.quoteCodes (s.toList.map Char.toNat)
  | .unpaired codes => Text.quoteCodes codes
  | s => s.displayChars

end Scalar

namespace Document

def separated : List (List Char) → List Char
  | [] => []
  | [cs] => cs
  | cs :: rest => cs ++ ',' :: ' ' :: separated rest

mutual

def notationChars : Document → List Char
  | .scalar s => s.notationChars
  | .list xs => '[' :: separated (notationItems xs) ++ [']']
  | .map es => '{' :: separated (notationEntries es) ++ ['}']

def notationItems : List Document → List (List Char)
  | [] => []
  | x :: xs => notationChars x :: notationItems xs

def notationEntries : Entries → List (List Char)
  | [] => []
  | (k, x) :: es => (k.notationChars ++ ':' :: ' ' :: notationChars x) :: notationEntries es

end

def displayChars : Document → List Char
  | .scalar s => s.displayChars
  | d => d.notationChars

def display (d : Document) : String := String.ofList d.displayChars

/-- The document in the notation of expressions. -/
def expression (d : Document) : String := String.ofList d.notationChars

end Document
end Dialogue
