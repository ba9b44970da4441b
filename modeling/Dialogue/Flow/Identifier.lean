import Dialogue.Failure
import Dialogue.Text.Blank
import Dialogue.Text.Casing

/-!
# Identifiers

Node and function names become names of the generated module, so they are ASCII identifiers that
are no keywords of it. Ids made from labels are slugs; ids already taken get a numeric suffix. A
decision node's id is put together from its owner's id and its function's name.
-/

namespace Dialogue.Identifier

/-- The words that the generated module's language keeps for itself. -/
def keywords : List String := [
  "False", "None", "True", "and", "as", "assert", "async", "await", "break", "class", "continue",
  "def", "del", "elif", "else", "except", "finally", "for", "from", "global", "if", "import", "in",
  "is", "lambda", "nonlocal", "not", "or", "pass", "raise", "return", "try", "while", "with",
  "yield"]

def isKeyword (s : String) : Bool := keywords.contains s

def isStart (c : Char) : Bool := c.isAlpha || c == '_'

def isContinue (c : Char) : Bool := c.isAlphanum || c == '_'

/-- The text without a line feed at its end. -/
def dropFinalFeed (cs : List Char) : List Char :=
  if cs.getLast? = some '\n' then cs.dropLast else cs

/-- A letter or underscore, then letters, digits and underscores. -/
def isWord : List Char → Bool
  | [] => false
  | c :: cs => isStart c && cs.all isContinue

/-- Names that a node, a function or a property may have. A line feed at the end goes unseen. -/
def isIdentifier (s : String) : Bool := isWord (dropFinalFeed s.toList) && !isKeyword s

/-! ## Free ids -/

def suffixed (candidate : String) (n : Nat) : String :=
  candidate ++ "_" ++ String.ofList (Number.decimalDigits n)

/-- The first of `candidate_n`, `candidate_(n+1)`, … that is free, within `attempts` steps. -/
def firstFree? (candidate : String) (taken : List String) (n : Nat) :
    (attempts : Nat) → Option String
  | 0 => none
  | attempts + 1 =>
    if taken.contains (suffixed candidate n) then firstFree? candidate taken (n + 1) attempts
    else some (suffixed candidate n)

/-- The candidate itself, or with the least numeric suffix that makes it free. -/
def disambiguate (candidate : String) (taken : List String) (attempts : Int) : Outcome String :=
  if !taken.contains candidate then .ok candidate
  else
    match firstFree? candidate taken 1 attempts.toNat with
    | some id => .ok id
    | none => .error (.identifiersExhausted candidate attempts)

/-! ## Slugs -/

def isSlugChar (c : Char) : Bool := c.isLower || c.isDigit || c == '_'

/-- Runs of underscores become one underscore. -/
def collapse : List Char → List Char
  | [] => []
  | c :: cs =>
    match collapse cs with
    | [] => [c]
    | d :: ds => if c = '_' ∧ d = '_' then d :: ds else c :: d :: ds

/-- The words of a label in lower case, joined by single underscores. -/
def slugBody (label : List Char) : List Char :=
  let lower := label.flatMap Text.lowerChars
  Text.stripWhile (· == '_') (collapse (lower.map fun c => if isSlugChar c then c else '_'))

/-- A body made a name: not empty, no digit first, no keyword. -/
def slugOfBody (body : List Char) : String :=
  let base := if (body.head?.any Char.isDigit) then "node_".toList ++ body else body
  let name := if base.isEmpty then "node" else String.ofList base
  if isKeyword name then name ++ "_node" else name

def slug (label : String) : String :=
  if label.toList.all Text.isBlank then "node" else slugOfBody (slugBody label.toList)

/-- A fresh node id made from a label. -/
def ofLabel (label : String) (taken : List String) (attempts : Int) : Outcome String :=
  disambiguate (slug label) taken attempts

/-! ## Decision ids -/

def decisionMark : String := "decision-"

def decisionId (owner function : String) : String := decisionMark ++ owner ++ "-" ++ function

/-- Whether an id belongs to the decision nodes. -/
def isManaged (id : String) : Bool := decisionMark.toList.isPrefixOf id.toList

/-- Owner and function of a decision id: the owner ends before the first hyphen after its first
character. Neither part is empty or holds a line feed. -/
def decisionParts? (id : String) : Option (String × String) :=
  if !isManaged id then none
  else
    let body := dropFinalFeed (id.toList.drop decisionMark.length)
    match body with
    | [] => none
    | c :: cs =>
      let owner := c :: cs.takeWhile (· != '-')
      let function := (cs.dropWhile (· != '-')).drop 1
      if function.isEmpty || body.contains '\n' then none
      else some (String.ofList owner, String.ofList function)

end Dialogue.Identifier
