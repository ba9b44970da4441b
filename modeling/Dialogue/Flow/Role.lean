import Dialogue.Document.Malformed

/-!
# Node roles

A node's role is never stored, only read off its data: a node that ends the conversation is an end,
a node with role messages is the initial one.
-/

namespace Dialogue

inductive Role where
  | initial
  | plain
  | final
deriving DecidableEq, Repr

namespace Role

def name : Role → String
  | .initial => "initial"
  | .plain => "node"
  | .final => "end"

def endConversation : String := "end_conversation"

def endsConversation : Document → Bool
  | .map es => match Entries.get es "type" with
    | .text s => s = endConversation
    | _ => false
  | _ => false

/-- The role that a node with these data has; data that are no map tell nothing. -/
def derive : Document → Loose Role
  | .map es => do
    let actions ← (Entries.get es "post_actions").elementsOrNone
    return if actions.any endsConversation then .final
      else if (Entries.get es "role_messages").isTrue then .initial
      else .plain
  | _ => .ok .plain

end Role
end Dialogue
