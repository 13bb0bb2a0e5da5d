import LuaGlue.AliasTable
import LuaGlue.Json.Piece
import LuaGlue.Json.Strings

namespace LuaGlue.AliasTable

/-- The object of a table, in the order of its keys. -/
def pieces (table : AliasTable) : List Json.Piece :=
  Json.objectPieces (table.entries.map fun entry => Json.fieldPieces entry.1 [.text entry.2])

def toJson (table : AliasTable) : String :=
  Json.compact table.pieces

/-- Reads a table at the front of a text. A key may be repeated: the last alias counts. -/
def read (cs : List Char) : Except Json.Error (AliasTable × List Char) :=
  (Json.readObject cs).map fun (aliases, rest) => (ofList aliases, rest)

def ofJson (text : String) : Except Json.Error AliasTable :=
  Json.finish (read text.toList)

end LuaGlue.AliasTable
