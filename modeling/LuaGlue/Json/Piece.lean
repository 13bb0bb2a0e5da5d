import LuaGlue.Json.Text

namespace LuaGlue.Json

/-- A part of a JSON text that cannot be divided. -/
inductive Piece where
  /-- A brace, a bracket, a comma or a colon. -/
  | mark (c : Char)
  | text (value : String)
  deriving DecidableEq

def Piece.written : Piece → String
  | mark c => c.toString
  | text value => quote value

/-- The text of a row of pieces without anything in between. -/
def compact (pieces : List Piece) : String :=
  String.join (pieces.map Piece.written)

/-- Rows of pieces with commas between them. -/
def separated : List (List Piece) → List Piece
  | [] => []
  | [row] => row
  | row :: rest => row ++ .mark ',' :: separated rest

def listPieces (texts : List String) : List Piece :=
  .mark '[' :: separated (texts.map fun text => [.text text]) ++ [.mark ']']

def fieldPieces (key : String) (value : List Piece) : List Piece :=
  .text key :: .mark ':' :: value

def objectPieces (fields : List (List Piece)) : List Piece :=
  .mark '\x7b' :: separated fields ++ [.mark '\x7d']

end LuaGlue.Json
