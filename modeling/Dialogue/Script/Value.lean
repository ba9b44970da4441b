import Dialogue.Document.Display
import Dialogue.Document.Malformed
import Dialogue.Flow.Basic
import Dialogue.Literal.Reader
import Dialogue.Literal.Writer
import Dialogue.Script.Text

/-!
# Values in generated code

Documents, the values of conditions and the descriptions of arguments, written as expressions.
-/

namespace Dialogue.Script

def commaSeparated (xs : List String) : String := ", ".intercalate xs

mutual

/-- A document as an expression, with its texts in double quotes. -/
def value : Document → String
  | .scalar s =>
    match s with
    | .text t => string t
    | .unpaired codes => string (String.ofList (codes.map Scalar.codeChar))
    | .date m => string (String.ofList (m.chars ' '))
    | s => String.ofList s.displayChars
  | .list xs => "[" ++ commaSeparated (valueItems xs) ++ "]"
  | .map es => "\x7b" ++ commaSeparated (valueEntries es) ++ "\x7d"

def valueItems : List Document → List String
  | [] => []
  | x :: xs => value x :: valueItems xs

def valueEntries : Entries → List String
  | [] => []
  | (k, x) :: es =>
    (string (String.ofList k.displayChars) ++ ": " ++ value x) :: valueEntries es

end

def stringList (xs : List String) : String := "[" ++ commaSeparated (xs.map string) ++ "]"

/-! ## Conditions -/

section

variable [Literal.CharNames]

/-- The notation of the literal that a text is, if that notation reads back as an equal literal. -/
def literal? (cs : List Char) : Except Literal.Fault (Option (List Char)) :=
  match Literal.read cs with
  | .ok l =>
    let shown := l.chars
    .ok (match Literal.read shown with
      | .ok m => if l.alike m then some shown else none
      | .error _ => none)
  | .error .notLiteral => .ok none
  | .error .tooLarge => .error .tooLarge

/-- The value of a condition: the literal that it reads as, or else the text itself. -/
def conditionValue (s : String) : Loose String :=
  match literal? (Text.strip s.toList) with
  | .ok (some cs) => .ok (String.ofList cs)
  | .ok none => .ok (string s)
  | .error _ => .error .tooLarge

end

/-! ## Numbers and choices -/

def quantity : Quantity → String
  | .whole n => String.ofList (Number.intChars n)
  | .real x => String.ofList (Number.floatChars Number.plainNames x)

def choice : Choice → String
  | .text s => string s
  | .number q => quantity q

def choiceList (cs : List Choice) : String := "[" ++ commaSeparated (cs.map choice) ++ "]"

/-! ## Arguments -/

/-- The numbers in the description of an argument. -/
def numbers (p : Property) : List Quantity :=
  (p.choices.getD []).filterMap Choice.number? ++ p.minimum.toList ++ p.maximum.toList

/-- Whole numbers are written up to a limit of digits. -/
def isShort : Quantity → Bool
  | .whole n => (Number.decimalDigits n.natAbs).length ≤ Number.maxDigits
  | .real _ => true

/-- The type that an argument is declared with, and its default value. -/
structure ArgumentType where
  hint : String
  default : String

def argumentType (p : Property) : ArgumentType :=
  match p.type with
  | "integer" => ⟨"int", "0"⟩
  | "number" => ⟨"float", "0"⟩
  | "boolean" => ⟨"bool", "False"⟩
  | "array" => ⟨"list", "[]"⟩
  | "object" => ⟨"dict", "\x7b\x7d"⟩
  | _ => ⟨"str", "\"\""⟩

/-- So many steps of indentation. -/
def indent (depth : Nat) : String := String.ofList (List.replicate (4 * depth) ' ')

def field (name value : String) : String := string name ++ ": " ++ value

/-- Texts that are not empty. -/
def nonEmpty (s : Option String) : Option String := s.filter (· != "")

/-- What a description says of an argument, field by field. -/
def propertyFields (p : Property) : List String :=
  field "type" (string p.type) ::
    ((nonEmpty p.description).map fun s => field "description" (string s)).toList ++
    (p.choices.map fun cs => field "enum" (choiceList cs)).toList ++
    (p.minimum.map fun q => field "minimum" (quantity q)).toList ++
    (p.maximum.map fun q => field "maximum" (quantity q)).toList ++
    ((nonEmpty p.pattern).map fun s => field "pattern" (string s)).toList

/-- The description of an argument, a field a line; `margin` stands before the closing brace. -/
def display (margin : String) (p : Property) : String :=
  "\x7b\n" ++ String.join ((propertyFields p).map fun f => margin ++ indent 1 ++ f ++ ",\n") ++
    margin ++ "\x7d"

def property (depth : Nat) (p : Property) : String := display (indent depth) p

end Dialogue.Script
