import LuaGlue.Decimal.Shortest
import LuaGlue.Json.Number
import LuaGlue.Json.Text
import LuaGlue.Text.Quoted

namespace LuaGlue.Json

def Number.shape : Number → Shape
  | integer value => .integer value
  | real negative magnitude =>
    .real ((if negative then "-" else "") ++ (Decimal.Short.ofBinary magnitude).text)

/-- Passes the letters of a literal. -/
def expectLetters : List Char → List Char → Except Error Unit
  | [], _ => .ok ()
  | _ :: _, [] => .error .truncated
  | want :: wants, c :: rest =>
    if c = want then expectLetters wants rest else .error .malformed

/-- The shape of the value at the front of a text, or the problem inside it. A value that is no list
and no object is read whole before it is refused, so a problem inside it comes first. -/
def shapeOf (cs : List Char) : Except Error Shape :=
  match cs with
  | 'n' :: rest => (expectLetters ['u', 'l', 'l'] rest).map fun _ => .null
  | 't' :: rest => (expectLetters ['r', 'u', 'e'] rest).map fun _ => .boolean true
  | 'f' :: rest => (expectLetters ['a', 'l', 's', 'e'] rest).map fun _ => .boolean false
  | '-' :: rest => (readNumber true rest).map fun (number, _) => number.shape
  | '"' :: rest => (unquote rest).map fun (text, _) => .text (String.ofList text)
  | '[' :: _ => .ok .list
  | '\x7b' :: _ => .ok .object
  | [] => .error .truncated
  | c :: rest =>
    if c.isDigit then (readNumber false (c :: rest)).map fun (number, _) => number.shape
    else .error .malformed

/-- The refusal of the value at the front of a text. -/
def refuse (wanted : Wanted) (cs : List Char) : Error :=
  match shapeOf cs with
  | .error e => e
  | .ok got => .mismatch (.shape got wanted)

def Shape.name : Shape → String
  | null => "null"
  | boolean value => "boolean `" ++ (if value then "true" else "false") ++ "`"
  | integer value => "integer `" ++ toString value ++ "`"
  | real digits => "floating point `" ++ digits ++ "`"
  | text value => "string " ++ Text.quoted value
  | list => "sequence"
  | object => "map"

def Wanted.name : Wanted → String
  | text => "a string"
  | list => "a sequence"
  | object => "a map"
  | settings => "struct GeneratorConfig"

def Mismatch.message : Mismatch → String
  | shape got wanted => "invalid type: " ++ got.name ++ ", expected " ++ wanted.name
  | unknownField name known =>
    "unknown field `" ++ name ++ "`, expected one of " ++
      String.intercalate ", " (known.map fun field => "`" ++ field ++ "`")
  | duplicateField name => "duplicate field `" ++ name ++ "`"

end LuaGlue.Json
