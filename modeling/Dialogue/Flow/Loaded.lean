import Dialogue.Exchange
import Dialogue.Flow.Normal
import Dialogue.Flow.Reading
import Dialogue.Flow.Writing

/-!
# Loaded flows

A flow takes over the values of its context and of the data fields that the format does not know as
they were read, whatever they are. Beside these open values it is a document like any other.
-/

namespace Dialogue

open Yaml (Value)

/-! ## Open values -/

/-- A map with a value made of each field. -/
def overlay (fill : String → Document → Value) : Document → Value
  | .map es => .map (es.map fun (k, d) => (.scalar k, match k with
      | .text key => fill key d
      | _ => .ofDocument d))
  | d => .ofDocument d

def openContext (source : Value) : Document → Value := overlay fun key _ => source.named key

/-- The value of a data field: the source's own, unless the format knows the field. -/
def openField (source : Value) (key : String) (d : Document) : Value :=
  if Reading.dataFields.contains key ∨ (source.field key).isNull then .ofDocument d
  else source.field key

def openData (source : Value) : Document → Value := overlay (openField source)

def openNode (source : Value) : Document → Value := overlay fun key d =>
  if key = "data" then openData (source.field "data") d else .ofDocument d

def openItems : List Value → List Document → List Value
  | v :: vs, d :: ds => openNode v d :: openItems vs ds
  | _, ds => ds.map .ofDocument

def openNodes (source : Value) : Document → Value
  | .list ds => .list (openItems source.items ds)
  | d => .ofDocument d

def openPart (source : Value) (key : String) (d : Document) : Value :=
  if key = "context" then openContext (source.field "context") d
  else if key = "nodes" then openNodes (source.field "nodes") d
  else .ofDocument d

/-- The document of a flow with the open values of the value that it was read from. -/
def opened (source : Value) : Document → Value := overlay (openPart source)

/-! ## Loading -/

/-- A normalized flow and the value that it was read from. -/
structure Loaded where
  flow : Flow
  source : Value

/-- A document of the flow with its open values. -/
def Loaded.withOpen (l : Loaded) (d : Document) : Value := opened l.source d

def Loaded.value (l : Loaded) : Value := l.withOpen l.flow.document

/-- What a text is loaded as. -/
def Flow.loaded (r : Reader) (text : String) : Outcome Loaded := do
  let v ← Exchange.readValue r text
  return ⟨(← Flow.ofDocument .use (r.typed v)).normalize, v⟩

/-- The normalized flow of a text, with its open values. -/
def Flow.load (r : Reader) (text : String) : Outcome Value := return (← Flow.loaded r text).value

end Dialogue
