import LuaGlue.Place
import LuaGlue.Token

namespace LuaGlue

/-- What would have been accepted instead of an unexpected token. -/
inductive Expected where
  | classKeyword
  /-- The body: a second native name is refused. -/
  | body
  | nativeNameEnd
  | params
  /-- A return type, since `static` must be followed by one. -/
  | returnType
  deriving DecidableEq

def Expected.text : Expected → String
  | classKeyword => "`class`"
  | body => "`\x7b` (real class name already given)"
  | nativeNameEnd => "`]`"
  | params => "`(`"
  | returnType => "a return type after `static`"

/-- Why a run stops. Nothing is resumed after one of these within a run. -/
inductive Error where
  | unexpectedToken (place : Place) (token : Token) (expected : Expected)
  /-- The description ends inside a class. -/
  | unexpectedEnd (place : Place)
  | staticCtor (wrapper : String)
  | duplicateClass (wrapper : String)
  /-- Members have no overloads: two of one name would get the same glue symbol. -/
  | duplicateMember (wrapper member : String)
  /-- The output target takes no more bytes. -/
  | sinkFull
  /-- A listener refused an event for a reason of its own. -/
  | refused
  deriving DecidableEq

def Error.message : Error → String
  | unexpectedToken place token expected =>
    "unexpected token `" ++ token.text ++ "` in state " ++ place.label ++ ", expected " ++ expected.text
  | unexpectedEnd place => "input ended inside a class declaration (state " ++ place.label ++ ")"
  | staticCtor wrapper => "constructor of class `" ++ wrapper ++ "` cannot be static"
  | duplicateClass wrapper => "class `" ++ wrapper ++ "` is declared more than once"
  | duplicateMember wrapper member =>
    "member `" ++ member ++ "` of class `" ++ wrapper ++ "` is declared more than once"
  | sinkFull => "sink full"
  | refused => "hook failed"

end LuaGlue
