import Dialogue.Document.Display

/-!
# Issues

What is wrong with a flow document: `Issue` for its structure, `RouteIssue` for the graph that it
describes.
-/

namespace Dialogue

/-- A violation of the document format: where, which rule, and in words. -/
structure Issue where
  path : String
  keyword : String
  message : String
deriving DecidableEq, Repr

def Issue.text (i : Issue) : String :=
  (if i.path = "" then "/" else i.path) ++ ": " ++ i.message ++ " [" ++ i.keyword ++ "]"

/-- Errors block export, warnings do not. -/
inductive Severity where
  | error
  | warning
deriving DecidableEq, Repr

def Severity.name : Severity → String
  | .error => "error"
  | .warning => "warning"

/-- A fault in the graph of a flow, with the values it is about. -/
structure RouteIssue where
  path : String
  keyword : String
  message : String
  params : List (String × Document)
  nodeId : Document := .null
  edgeId : Document := .null
  severity : Severity := .error

def RouteIssue.text (i : RouteIssue) : String :=
  i.path ++ ": " ++ i.message ++ " [" ++ i.keyword ++ "]"

end Dialogue
