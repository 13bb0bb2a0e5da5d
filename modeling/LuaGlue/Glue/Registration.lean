import LuaGlue.Glue.Function
import LuaGlue.Registry
import LuaGlue.Settings

namespace LuaGlue.Glue

def classLine (interpreter wrapper : String) : String :=
  "  " ++ interpreter ++ ".registerBase(\"" ++ wrapper ++ "\");"

/-- Registers a member under the symbol of its glue function. -/
def memberLine (interpreter wrapper member : String) : String :=
  "  " ++ interpreter ++ ".registerMethod(\"" ++ wrapper ++ "\", \"" ++ member ++ "\", &" ++
    symbol wrapper member ++ ");"

def entryLines (interpreter : String) (entry : ClassEntry) : List String :=
  [classLine interpreter entry.wrapper] ++
    entry.members.map (memberLine interpreter entry.wrapper) ++ [""]

/-- The lines of the registration function, which stands at the end of the generated text and
registers all classes and members. -/
def registrationLines (settings : Settings) (registry : Registry) : List String :=
  ["void " ++ settings.registerFunction ++ "() \x7b"] ++
    registry.entries.flatMap (entryLines settings.interpreter) ++ ["\x7d", ""]

@[inherit_doc registrationLines]
def registration (settings : Settings) (registry : Registry) : String :=
  Text.ofLines (registrationLines settings registry)

end LuaGlue.Glue
