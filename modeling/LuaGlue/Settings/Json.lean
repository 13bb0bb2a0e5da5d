import LuaGlue.AliasTable.Json
import LuaGlue.Settings

namespace LuaGlue.Settings

inductive Field where
  | includes
  | usings
  | aliases
  | registerFunction
  | interpreter
  deriving DecidableEq

namespace Field

def name : Field → String
  | includes => "includes"
  | usings => "usings"
  | aliases => "type_aliases"
  | registerFunction => "register_function"
  | interpreter => "interpreter"

/-- All fields in the order in which they are written. -/
def all : List Field :=
  [includes, usings, aliases, registerFunction, interpreter]

def ofName? (key : String) : Option Field :=
  all.find? fun field => field.name = key

end Field

def fieldPieces (s : Settings) : Field → List Json.Piece
  | .includes => Json.listPieces s.includes
  | .usings => Json.listPieces s.usings
  | .aliases => s.aliases.pieces
  | .registerFunction => [.text s.registerFunction]
  | .interpreter => [.text s.interpreter]

def pieces (s : Settings) : List Json.Piece :=
  Json.objectPieces (Field.all.map fun field => Json.fieldPieces field.name (s.fieldPieces field))

def toJson (s : Settings) : String :=
  Json.compact s.pieces

/-- Reads the value of a field and puts it in the place of the present one. -/
def readField (s : Settings) (field : Field) (cs : List Char) :
    Except Json.Error (Settings × List Char) :=
  match field with
  | .includes => (Json.readList cs).map fun (includes, rest) => ({ s with includes }, rest)
  | .usings => (Json.readList cs).map fun (usings, rest) => ({ s with usings }, rest)
  | .aliases => (AliasTable.read cs).map fun (aliases, rest) => ({ s with aliases }, rest)
  | .registerFunction =>
    (Json.readText cs).map fun (registerFunction, rest) => ({ s with registerFunction }, rest)
  | .interpreter => (Json.readText cs).map fun (interpreter, rest) => ({ s with interpreter }, rest)

/-- Reads a key: it must be one of the fields that have not been given yet. This is checked before
the colon behind it. -/
def readName (missing : List Field) (cs : List Char) : Except Json.Error (Field × List Char) :=
  match Json.readKey cs with
  | .error e => .error e
  | .ok (key, rest) =>
    match Field.ofName? key with
    | none => .error (.mismatch (.unknownField key (Field.all.map Field.name)))
    | some field =>
      if field ∈ missing then .ok (field, rest)
      else .error (.mismatch (.duplicateField field.name))

theorem mem_of_readName {missing : List Field} {cs rest : List Char} {field : Field}
    (h : readName missing cs = .ok (field, rest)) : field ∈ missing := by
  unfold readName at h
  split at h
  · cases h
  split at h
  · cases h
  split at h
  · cases h
    assumption
  · cases h

/-- Reads the fields of an object, from behind its opening brace, when only the `missing` ones have
not been given yet. -/
def readFields (isFirst : Bool) (missing : List Field) (s : Settings) (cs : List Char) :
    Except Json.Error (Settings × List Char) :=
  match Json.turn '\x7d' isFirst cs with
  | .error e => .error e
  | .ok (.done rest) => .ok (s, rest)
  | .ok (.item item) =>
    match _ : readName missing item with
    | .error e => .error e
    | .ok (field, behind) =>
      match Json.colon behind with
      | .error e => .error e
      | .ok value =>
        match s.readField field value with
        | .error e => .error e
        | .ok (s, rest) => readFields false (missing.erase field) s rest
termination_by missing.length
decreasing_by
  have hmem := mem_of_readName ‹readName missing item = .ok (field, behind)›
  have := List.length_pos_of_mem hmem
  rw [List.length_erase_of_mem hmem]
  omega

/-- Reads values by position, from behind the opening bracket. A value too many is no JSON of
this form at all. -/
def readPositions (isFirst : Bool) (s : Settings) (cs : List Char) :
    List Field → Except Json.Error (Settings × List Char)
  | [] =>
    match Json.skipBlanks cs with
    | [] => .error .truncated
    | ']' :: rest => .ok (s, rest)
    | _ => .error .malformed
  | field :: fields =>
    match Json.turn ']' isFirst cs with
    | .error e => .error e
    | .ok (.done rest) => .ok (s, rest)
    | .ok (.item item) =>
      match s.readField field item with
      | .error e => .error e
      | .ok (s, rest) => readPositions false s rest fields

/-- Reads settings at the front of a text. It names some of the fields, in any order, or lists their
values by position; each value replaces the whole default of its field. -/
def read (cs : List Char) : Except Json.Error (Settings × List Char) :=
  match Json.skipBlanks cs with
  | [] => .error .truncated
  | '\x7b' :: rest => readFields true Field.all {} rest
  | '[' :: rest => readPositions true {} rest Field.all
  | rest => .error (Json.refuse .settings rest)

def ofJson (text : String) : Except Json.Error Settings :=
  Json.finish (read text.toList)

end LuaGlue.Settings
