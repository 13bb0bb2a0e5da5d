import LuaGlue.Signature

namespace LuaGlue

/-- One piece of structure, told as soon as it is recognized. -/
inductive Event where
  | classStart (wrapper : String)
  /-- The native name of the class that was started last. -/
  | nativeName (native : String)
  | method (signature : Signature)
  | ctor (signature : Signature)
  | classEnd
  deriving DecidableEq

def Signature.event (s : Signature) : Event :=
  if s.isCtor then .ctor s else .method s

end LuaGlue
