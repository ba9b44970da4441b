import Dialogue.Script.Name
import Dialogue.Script.Value

/-!
# Result types

A function with properties has a result type with a field for each. Functions whose types would be
written the same share one; a name that is taken, by another type or by an import, is given a
number.
-/

namespace Dialogue.Script

/-- A type that has been named. -/
structure ResultType where
  name : String
  /-- The name it would have if that were free. -/
  base : String
  body : String
  /-- The function that needed it first. -/
  function : String

/-- The types of a module, in the order of first use. -/
abbrev Registry := List ResultType

def propertyList (f : Signature) : List (String × Property) := f.properties.getD []

def fieldLine (required : List String) (p : String × Property) : String :=
  indent 1 ++ p.1 ++ ": " ++ (argumentType p.2).hint ++
    (if required.contains p.1 then "" else " | None")

def typeBody (f : Signature) : String :=
  "\n".intercalate ((propertyList f).map (fieldLine (f.required.getD [])))

namespace Registry

def find? (types : Registry) (base body : String) : Option ResultType :=
  List.find? (fun t => t.base = base && t.body = body) types

def names (types : Registry) : List String := types.map (·.name)

def numbered (stem : String) (n : Nat) : String := stem ++ toString n ++ resultWord

/-- The first free name with a number from `n` on. -/
def freeName (taken : List String) (stem : String) (n : Nat) : (fuel : Nat) → String
  | 0 => numbered stem n
  | fuel + 1 =>
    if taken.contains (numbered stem n) then freeName taken stem (n + 1) fuel else numbered stem n

def chooseName (taken : List String) (function : String) : String :=
  let base := typeName function
  if taken.contains base then freeName taken (typeStem function) 2 taken.length else base

/-- Adds the type of a function, unless it has none or has been added before. -/
def register (reserved : List String) (types : Registry) (f : Signature) : Registry :=
  let base := typeName f.name
  let body := typeBody f
  if (propertyList f).isEmpty || (types.find? base body).isSome then types
  else types ++ [⟨chooseName (types.names ++ reserved) f.name, base, body, f.name⟩]

def ofFunctions (reserved : List String) (fs : List Signature) : Registry :=
  fs.foldl (register reserved) []

/-- The name of a function's result type. -/
def nameOf? (types : Registry) (f : Signature) : Option String :=
  if (propertyList f).isEmpty then none
  else (types.find? (typeName f.name) (typeBody f)).map (·.name)

end Registry

def ResultType.definition (t : ResultType) : String :=
  "class " ++ t.name ++ "(FlowResult):\n" ++ indent 1 ++ "\"\"\"Result type for " ++ t.function ++
    " function\"\"\"\n" ++ t.body ++ "\n"

end Dialogue.Script
