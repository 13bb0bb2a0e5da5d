import LuaGlue.Settings
import LuaGlue.Text.Lines

namespace LuaGlue.Glue

/-- The warning at the top of the generated text. -/
def banner : List String :=
  ["//", "// /!\\ WARNING: This is generated code. Changes to it will be lost.", "//"]

/-- Some lines and an empty one behind them; no line at all if there are none. -/
def block (lines : List String) : List String :=
  if lines.isEmpty then [] else lines ++ [""]

/-- The lines of the head: a warning, the included files and the used names. -/
def preludeLines (settings : Settings) : List String :=
  [""] ++ banner ++ [""] ++ block (settings.includes.map ("#include " ++ ·)) ++
    block (settings.usings.map ("using " ++ · ++ ";"))

@[inherit_doc preludeLines]
def prelude (settings : Settings) : String :=
  Text.ofLines (preludeLines settings)

end LuaGlue.Glue
