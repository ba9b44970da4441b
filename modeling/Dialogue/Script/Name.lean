import Dialogue.Flow.Identifier
import Dialogue.Script.Text
import Dialogue.Text.NameChar

/-!
# Names in generated code

What the factories, handlers, descriptors and result types of a module are called.
-/

namespace Dialogue.Script

def factoryName (node : String) : String := "create_" ++ node ++ "_node"
def handlerName (function : String) : String := "handle_" ++ function
def descriptorName (function : String) : String := function ++ "_func"

def capitalize : List Char → List Char
  | [] => []
  | c :: cs => Text.upperChars c ++ cs

/-- The words of a function's name, each with a capital first. -/
def typeStem (function : String) : String :=
  String.ofList ((function.toList.splitOn '_').flatMap capitalize)

def resultWord : String := "Result"

def typeName (function : String) : String := typeStem function ++ resultWord

/-- Names of any script, but no keywords. -/
def isUsableName (cs : List Char) : Bool :=
  Text.isName cs && !Identifier.isKeyword (String.ofList cs)

/-- A handler by its name, perhaps with dots in it; in quotes if it is no such name. -/
def handlerReference (handler : String) : String :=
  if (handler.toList.splitOn '.').all isUsableName then handler else string handler

end Dialogue.Script
