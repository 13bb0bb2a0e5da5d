namespace LuaGlue.Json

/-- What was found where something else was wanted. Only the kind of a list or an object is
known, since its contents are not looked at. -/
inductive Shape where
  | null
  | boolean (value : Bool)
  | integer (value : Int)
  /-- The text of a number that is no integer. -/
  | real (digits : String)
  | text (value : String)
  | list
  | object
  deriving DecidableEq

/-- What is wanted at some point of a text. -/
inductive Wanted where
  | text
  | list
  | object
  | settings
  deriving DecidableEq

/-- A text that is proper JSON so far, but says something that makes no sense. -/
inductive Mismatch where
  | shape (got : Shape) (wanted : Wanted)
  | unknownField (name : String) (known : List String)
  | duplicateField (name : String)
  deriving DecidableEq

/-- The first problem of a JSON text. -/
inductive Error where
  /-- The text ends where more is needed. -/
  | truncated
  /-- The text is not JSON. -/
  | malformed
  | mismatch (cause : Mismatch)
  deriving DecidableEq

end LuaGlue.Json
