import Dialogue.Yaml.Lexer
import Dialogue.Yaml.Scalar

/-!
# YAML nodes

The tree of one document: every node has its tag, and an alias stands for a copy of the node that
it names.
-/

namespace Dialogue.Yaml

inductive Node where
  | scalar (tag : Tag) (codes : List Nat)
  | list (tag : Tag) (items : List Node)
  | map (tag : Tag) (entries : List (Node × Node))

/-- What is known while the tokens of a document are read. -/
structure Parse where
  tokens : List Token
  /-- The tag handles and what they stand for. -/
  handles : List (String × String)
  anchors : List (String × Node) := []

abbrev Parser := StateT Parse (Except Fault)

/-- The node where nothing stands. -/
def Node.empty : Node := .scalar .null []

namespace Parser

def fail {α : Type} : Parser α := throw .notYaml

def peek : Parser Token := return (← get).tokens.headD .textEnd

def skip : Parser Unit := modify fun p => { p with tokens := p.tokens.drop 1 }

def expect (p : Token → Bool) : Parser Unit := do
  if p (← peek) then skip else fail

/-- What stands before the content of a node. -/
structure Properties where
  anchor : Option String := none
  tag : Option String := none

def tagText (t : TagName) : Parser String := do
  match t.handle with
  | none => return t.suffix
  | some handle =>
    match (← get).handles.lookup handle with
    | some start => return start ++ t.suffix
    | none => fail

/-- An anchor and a tag, in either order. -/
def properties : Parser Properties := do
  match ← peek with
  | .anchor name =>
    skip
    match ← peek with
    | .tag t =>
      skip
      return { anchor := some name, tag := some (← tagText t) }
    | _ => return { anchor := some name }
  | .tag t =>
    skip
    let tag ← tagText t
    match ← peek with
    | .anchor name =>
      skip
      return { anchor := some name, tag := some tag }
    | _ => return { tag := some tag }
  | _ => return {}

/-- The tag of a scalar: as written, or by form when it is plain or asks for that. -/
def scalarTag (tag : Option String) (plain : Bool) (codes : List Nat) : Tag :=
  let byForm : Tag :=
    match Scalar.ofCodes codes with
    | .text s => plainTag s.toList
    | _ => .text
  match tag with
  | some "!" => byForm
  | none => if plain then byForm else .text
  | some name => Tag.ofName name

/-- The tag of a list or a map. -/
def collectionTag (tag : Option String) (default : Tag) : Tag :=
  match tag with
  | some "!" | none => default
  | some name => Tag.ofName name

/-- Remembers a node under its anchor; no two nodes share one. -/
def remember (anchor : Option String) (n : Node) : Parser Node := do
  match anchor with
  | none => return n
  | some name =>
    if ((← get).anchors.lookup name).isSome then fail
    modify fun p => { p with anchors := (name, n) :: p.anchors }
    return n

mutual

/-- A node. Only in a block may block collections follow, and only as the value of a key may a list
stand at the indentation of the map around it. -/
def node (block levelList : Bool) : (fuel : Nat) → Parser Node
  | 0 => fail
  | fuel + 1 => do
    match ← peek with
    | .alias name =>
      skip
      match (← get).anchors.lookup name with
      | some n => return n
      | none => fail
    | _ =>
      let props ← properties
      let list (items : List Node) := Node.list (collectionTag props.tag .list) items
      let map (entries : List (Node × Node)) := Node.map (collectionTag props.tag .map) entries
      let bare := props.anchor.isNone && props.tag.isNone
      match ← peek, block, levelList with
      | .item, _, true => remember props.anchor (list (← levelItems fuel))
      | .scalar codes plain, _, _ =>
        skip
        remember props.anchor (.scalar (scalarTag props.tag plain codes) codes)
      | .flowListStart, _, _ =>
        skip
        remember props.anchor (list (← flowItems true fuel))
      | .flowMapStart, _, _ =>
        skip
        remember props.anchor (map (← flowEntries true fuel))
      | .listStart, true, _ =>
        skip
        remember props.anchor (list (← blockItems fuel))
      | .mapStart, true, _ =>
        skip
        remember props.anchor (map (← blockEntries fuel))
      | _, _, _ =>
        if bare then fail
        else remember props.anchor (.scalar (scalarTag props.tag true []) [])

/-- The items of a block list and its end. -/
def blockItems : (fuel : Nat) → Parser (List Node)
  | 0 => fail
  | fuel + 1 => do
    match ← peek with
    | .item =>
      skip
      let x ← match ← peek with
        | .item | .blockEnd => pure .empty
        | _ => node true false fuel
      return x :: (← blockItems fuel)
    | .blockEnd =>
      skip
      return []
    | _ => fail

/-- The items of a list at the indentation of the map around it. -/
def levelItems : (fuel : Nat) → Parser (List Node)
  | 0 => fail
  | fuel + 1 => do
    match ← peek with
    | .item =>
      skip
      let x ← match ← peek with
        | .item | .key | .value | .blockEnd => pure .empty
        | _ => node true false fuel
      return x :: (← levelItems fuel)
    | _ => return []

/-- The entries of a block map and its end. -/
def blockEntries : (fuel : Nat) → Parser (List (Node × Node))
  | 0 => fail
  | fuel + 1 => do
    match ← peek with
    | .key =>
      skip
      let k ← match ← peek with
        | .key | .value | .blockEnd => pure .empty
        | _ => node true true fuel
      let v ← match ← peek with
        | .value => do
          skip
          match ← peek with
          | .key | .value | .blockEnd => pure .empty
          | _ => node true true fuel
        | _ => pure .empty
      return (k, v) :: (← blockEntries fuel)
    | .blockEnd =>
      skip
      return []
    | _ => fail

/-- The items of a flow list and its end; an item may be a map of one entry. -/
def flowItems (first : Bool) : (fuel : Nat) → Parser (List Node)
  | 0 => fail
  | fuel + 1 => do
    match ← peek with
    | .flowListEnd =>
      skip
      return []
    | _ =>
      if !first then
        expect fun t => t matches .comma
      match ← peek with
      | .flowListEnd =>
        skip
        return []
      | .key =>
        skip
        let k ← match ← peek with
          | .value | .comma | .flowListEnd => pure .empty
          | _ => node false false fuel
        let v ← match ← peek with
          | .value => do
            skip
            match ← peek with
            | .comma | .flowListEnd => pure .empty
            | _ => node false false fuel
          | _ => pure .empty
        return .map .map [(k, v)] :: (← flowItems false fuel)
      | _ =>
        let x ← node false false fuel
        return x :: (← flowItems false fuel)

/-- The entries of a flow map and its end; a key may stand alone. -/
def flowEntries (first : Bool) : (fuel : Nat) → Parser (List (Node × Node))
  | 0 => fail
  | fuel + 1 => do
    match ← peek with
    | .flowMapEnd =>
      skip
      return []
    | _ =>
      if !first then
        expect fun t => t matches .comma
      match ← peek with
      | .flowMapEnd =>
        skip
        return []
      | .key =>
        skip
        let k ← match ← peek with
          | .value | .comma | .flowMapEnd => pure .empty
          | _ => node false false fuel
        let v ← match ← peek with
          | .value => do
            skip
            match ← peek with
            | .comma | .flowMapEnd => pure .empty
            | _ => node false false fuel
          | _ => pure .empty
        return (k, v) :: (← flowEntries false fuel)
      | _ =>
        let k ← node false false fuel
        return (k, .empty) :: (← flowEntries false fuel)

end

def defaultHandles : List (String × String) := [("!", "!"), ("!!", standardStart)]

/-- The directives before a document: at most one version, which has to be of the first series, and
tag handles, each at most once. -/
def directives : (fuel : Nat) → (version : Bool) → List (String × String) →
    Parser (List (String × String))
  | 0, _, handles => return handles
  | fuel + 1, version, handles => do
    match ← peek with
    | .version major =>
      skip
      if version ∨ major ≠ 1 then fail
      directives fuel true handles
    | .tagHandle handle start =>
      skip
      if (handles.lookup handle).isSome then fail
      directives fuel version ((handle, start) :: handles)
    | .unknownDirective =>
      skip
      directives fuel version handles
    | _ => return handles

/-- The content of a document that was opened by a mark. -/
def content (fuel : Nat) : Parser Node := do
  match ← peek with
  | .version _ | .tagHandle _ _ | .unknownDirective | .documentStart | .documentEnd | .textEnd =>
    return .empty
  | _ => node true false fuel

/-- The only document of a text, if there is one. -/
def document (fuel : Nat) : Parser (Option Node) := do
  match ← peek with
  | .textEnd => return none
  | .version _ | .tagHandle _ _ | .unknownDirective | .documentStart =>
    let handles ← directives fuel false []
    modify fun p => { p with handles := handles ++ defaultHandles }
    expect fun t => t matches .documentStart
    return some (← content fuel)
  | _ => return some (← node true false fuel)

/-- Passes the marks after a document. -/
def documentEnds : (fuel : Nat) → Parser Unit
  | 0 => pure ()
  | fuel + 1 => do
    match ← peek with
    | .documentEnd =>
      skip
      documentEnds fuel
    | _ => pure ()

end Parser

/-- The tree of a text that holds at most one document. -/
def Node.ofTokens? (tokens : List Token) : Except Fault (Option Node) := do
  let fuel := 3 * tokens.length + 3
  let parser : Parser (Option Node) := do
    let n ← Parser.document fuel
    Parser.documentEnds fuel
    Parser.expect fun t => t matches .textEnd
    return n
  return (← parser.run { tokens, handles := Parser.defaultHandles }).1

end Dialogue.Yaml
