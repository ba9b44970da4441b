import Dialogue.Edit.Canvas

/-!
# Duplicates

A duplicate has its source's data under a fresh id and a label that marks it as a copy: "Node copy",
then "Node copy 2" and so on.
-/

namespace Dialogue.Edit

open Dialogue.Graph (Node)
open Text (isBlank)

def copyWord : List Char := "copy".toList

/-- A text after another one at its start, characters compared by `same`. -/
def after? (same : α → α → Bool) : (start : List α) → List α → Option (List α)
  | [], cs => some cs
  | s :: ss, c :: cs => if same s c then after? same ss cs else none
  | _ :: _, [] => none

/-- What comes after the blanks that a text starts with, if it starts with any. -/
def afterBlanks? : List Char → Option (List Char)
  | [] => none
  | c :: cs => if isBlank c then some (cs.dropWhile isBlank) else none

/-- The digits of a copy's number, which end the text but for a line feed. -/
def copyDigits? (cs : List Char) : Option (List Nat) :=
  let body := Identifier.dropFinalFeed cs
  if body.isEmpty then none else body.mapM Text.digitValue?

/-- The digits of the number in `" copy"` or `" copy n"`, none in the first. -/
def copyMark? (cs : List Char) : Option (List Nat) := do
  let rest ← after? Text.sameLetter copyWord (← afterBlanks? cs)
  if (Identifier.dropFinalFeed rest).isEmpty then some []
  else copyDigits? (← afterBlanks? rest)

/-! ## Labels of copies

Labels are worked on as code points, since they may hold unpaired surrogates. -/

def codesOf (cs : List Char) : List Nat := cs.map Char.toNat

def charsOf (codes : List Nat) : List Char := codes.map Scalar.codeChar

/-- Equality of code points up to case, which surrogates do not have. -/
def sameCode (a b : Nat) : Bool :=
  if a.isValidChar && b.isValidChar then Text.sameLetter (Char.ofNat a) (Char.ofNat b) else a == b

def stripCodes : List Nat → List Nat := Text.stripWhile fun c => isBlank (Scalar.codeChar c)

def isCopyMark (codes : List Nat) : Bool := (copyMark? (charsOf codes)).isSome

/-- What a label is without the mark of a copy: its shortest start, not empty, that is followed by
such a mark. Marks are not looked for beyond the first line. -/
def copyBaseFrom (start : List Nat) : List Nat → Option (List Nat)
  | [] => none
  | c :: cs =>
    if c = '\n'.toNat then none
    else if cs.isEmpty || isCopyMark cs then some (c :: start).reverse
    else copyBaseFrom (c :: start) cs

def copyBase (label : List Nat) : List Nat :=
  let body := stripCodes label
  let body := if body.isEmpty then codesOf "Node".toList else body
  match copyBaseFrom [] body with
  | some base => stripCodes base
  | none => body

/-- The number of a copy of `base`; the first copy does not show it. -/
def copyNumber (base label : List Nat) : Loose Nat :=
  match (after? sameCode base label).bind fun rest => copyMark? (charsOf rest) with
  | none => .ok 0
  | some [] => .ok 1
  | some ds =>
    if Number.maxDigits < ds.length then .error .badValue else .ok (Number.natOfDigits 10 ds)

/-- The code points of a label that is a text. -/
def labelCodes? : Document → Option (List Nat)
  | .scalar s => s.codes?
  | _ => none

def labelCodes (d : Document) : Loose (List Nat) :=
  match labelCodes? d with
  | some codes => .ok codes
  | none => .error .wrongKind

/-- The label of the next copy among labels. -/
def nextLabel (label : List Nat) (labels : List Document) : Loose (List Nat) := do
  let base := copyBase label
  let numbers ← labels.mapM fun l => do copyNumber base (← labelCodes l)
  let highest := numbers.foldl max 0
  let copy := base ++ codesOf (' ' :: copyWord)
  if highest = 0 then .ok copy
  else
    let digits := Number.decimalDigits (highest + 1)
    if Number.maxDigits < digits.length then .error .badValue
    else .ok (copy ++ codesOf (' ' :: digits))

/-- The label of the next copy of a text without surrogates. -/
def copyLabel (label : String) (labels : List Document) : Loose String :=
  return String.ofList (charsOf (← nextLabel (codesOf label.toList) labels))

/-! ## Duplicating a node -/

/-- A label to make copies of; a value that counts as false is none. -/
def labelOf (d : Document) : Loose (List Nat) :=
  if !d.isTrue then .ok (codesOf "Node".toList)
  else
    match labelCodes? d with
    | some codes => .ok codes
    | none => .error .noFields

/-- A flow starts at one node only, so the copy of the initial node speaks no role messages. -/
def copiedData (data : Entries) : Loose Entries := do
  match ← Role.derive (.map data) with
  | .initial => .ok (data.erase "role_messages")
  | _ => .ok data

def duplicateNode (settings : Settings) (n : Node) (nodes : List Node) : Outcome Node := do
  if n.isDecision then .error (.managedNode n.id .duplicate)
  else
    let data ← copiedData n.data
    let labels := (nodes.map fun m => m.data.get "label").filter Document.isTrue
    let label ← nextLabel (← labelOf (n.data.get "label")) labels
    let data := data.put "label" (.scalar (Scalar.ofCodes label))
    let id ← Identifier.ofLabel (String.ofList (charsOf label)) (nodes.map (·.id))
      settings.suffixAttempts
    let role ← Role.derive (.map data)
    .ok {
      id
      kind := role.name
      position := ⟨n.position.x + settings.duplicateOffset.x,
        n.position.y + settings.duplicateOffset.y⟩
      data }

end Dialogue.Edit
