import Dialogue.Document.Malformed
import Dialogue.Flow.Issue
import Dialogue.Text.Quote

/-!
# Failures

Why an operation on a flow or a graph gives no result, and what is said about it.
-/

namespace Dialogue

/-- What an invalid flow was wanted for. -/
inductive Purpose where
  | use
  | generation
deriving DecidableEq, Repr

/-- What may not be done to a decision node, which its function alone manages. -/
inductive ManagedAction where
  | rename
  | delete
  | edit
  | duplicate
deriving DecidableEq, Repr

def ManagedAction.text : ManagedAction → String
  | .rename => "cannot be renamed"
  | .delete => "is managed and cannot be deleted"
  | .edit => "cannot be edited directly"
  | .duplicate => "cannot be duplicated"

inductive Failure where
  | invalidFlow (issues : List Issue) (purpose : Purpose)
  | brokenGraph (issues : List RouteIssue)
  | invalidIdentifier (name : String)
  | identifiersExhausted (candidate : String) (attempts : Int)
  | unknownNode (id : String)
  | managedNode (id : String) (action : ManagedAction)
  | ownerlessDecision (id : String)
  | malformed (m : Malformed)

abbrev Outcome := Except Failure

/-- A heading and indented lines. -/
def itemized (heading : String) (items : List String) : String :=
  heading ++ "\n" ++ "\n".intercalate (items.map ("  " ++ ·))

def Purpose.heading : Purpose → String
  | .use => "Flow is not valid:"
  | .generation => "Cannot generate code, flow is not valid:"

def Malformed.message : Malformed → String
  | .missingKey => "a required field is missing"
  | .noFields => "a value without fields is asked for one"
  | .wrongKind => "a value has the wrong kind"
  | .badValue => "a value stands for nothing"
  | .tooLarge => "a number is out of range"

def Failure.message : Failure → String
  | .invalidFlow issues purpose => itemized purpose.heading (issues.map Issue.text)
  | .brokenGraph issues => itemized "Flow graph has broken references:" (issues.map RouteIssue.text)
  | .invalidIdentifier name => "Node id must be a valid Python identifier: " ++ Text.quoted name
  | .identifiersExhausted candidate attempts =>
    "Could not find a free identifier for " ++ Text.quoted candidate ++ " after " ++
      String.ofList (Number.intChars attempts) ++ " attempts"
  | .unknownNode id => "Node not found: " ++ id
  | .managedNode id action => "Decision node " ++ Text.quoted id ++ " " ++ action.text
  | .ownerlessDecision id => "Decision node " ++ Text.quoted id ++ " has no owning function"
  | .malformed m => m.message

/-- A loose reading as a step of an operation. -/
def Loose.lift (x : Loose α) : Outcome α := x.mapError .malformed

instance : MonadLift Loose Outcome := ⟨Loose.lift⟩

end Dialogue
