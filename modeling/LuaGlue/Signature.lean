namespace LuaGlue

/-- A constructor or method declaration, as it is collected while it is read. A constructor has
neither a return type nor a name. -/
structure Signature where
  /-- The return type, with its `*` and `&` joined on. -/
  returns : String := ""
  name : String := ""
  /-- The parameter types in declaration order. -/
  params : List String := []
  isStatic : Bool := false
  isCtor : Bool := false
  deriving DecidableEq

namespace Signature

/-- The member name that stands for the constructor of a class. -/
def ctorName : String := "ctor"

def memberName (s : Signature) : String :=
  if s.isCtor then ctorName else s.name

/-- Only the bare type `void` yields no value; `void*` is a type like any other. -/
def returnsVoid (s : Signature) : Bool :=
  s.returns = "void"

def addParam (s : Signature) (type : String) : Signature :=
  { s with params := s.params ++ [type] }

/-- Joins a modifier to the last of some parameter types, with a space between them. Without a
parameter the modifier is dropped. -/
def decorateLast (modifier : String) : List String → List String
  | [] => []
  | [type] => [type ++ " " ++ modifier]
  | type :: next :: rest => type :: decorateLast modifier (next :: rest)

@[inherit_doc decorateLast]
def decorate (s : Signature) (modifier : String) : Signature :=
  { s with params := decorateLast modifier s.params }

private theorem decorateLast_append (modifier type : String) (types : List String) :
    decorateLast modifier (types ++ [type]) = types ++ [type ++ " " ++ modifier] := by
  induction types with
  | nil => rfl
  | cons first types ih =>
    cases types with
    | nil => rfl
    | cons next rest => exact congrArg (first :: ·) ih

/-- A modifier behind a parameter type belongs to that type. -/
theorem decorate_addParam (s : Signature) (type modifier : String) :
    (s.addParam type).decorate modifier = s.addParam (type ++ " " ++ modifier) := by
  simp only [addParam, decorate, decorateLast_append]

end Signature

end LuaGlue
