import LuaGlue.Place
import LuaGlue.Token

namespace LuaGlue

/-- Levels in order of detail: a log kept at one level holds all the levels before it. -/
inductive Level where
  | error
  | warn
  | info
  | debug
  | trace
  deriving DecidableEq

namespace Level

def detail : Level → Nat
  | error => 1
  | warn => 2
  | info => 3
  | debug => 4
  | trace => 5

def label : Level → String
  | error => "ERROR"
  | warn => "WARN"
  | info => "INFO"
  | debug => "DEBUG"
  | trace => "TRACE"

end Level

/-- One thing that happened in a run. -/
inductive Record where
  /-- A token is about to be read at this place. -/
  | fed (place : Place) (token : Token)
  /-- A class is about to be started; it may still turn out to be a duplicate. -/
  | wrapping (wrapper : String)
  | native (wrapper target : String)
  /-- The glue function with this symbol is written completely. -/
  | emitted (symbol : String)
  | unclosedComment
  /-- A whole description is wrapped. -/
  | summary (classes members : Nat)
  deriving DecidableEq

namespace Record

def level : Record → Level
  | fed .. => .trace
  | wrapping _ => .info
  | native .. => .debug
  | emitted _ => .debug
  | unclosedComment => .warn
  | summary .. => .info

def message : Record → String
  | fed place token => place.label ++ " <- `" ++ token.text ++ "`"
  | wrapping wrapper => "Wrapping class \"" ++ wrapper ++ "\"..."
  | native wrapper target => wrapper ++ " wraps native class " ++ target
  | emitted symbol => "emitted " ++ symbol
  | unclosedComment => "input ends inside an unterminated /* comment"
  | summary classes members =>
    "Wrapped " ++ toString classes ++ " classes, " ++ toString members ++ " members"

def line (r : Record) : String :=
  r.level.label ++ " " ++ r.message

def isFed : Record → Bool
  | fed .. => true
  | _ => false

end Record

/-- The lines of a log that is kept at the given level. -/
def Level.lines (level : Level) (records : List Record) : List String :=
  (records.filter fun r => r.level.detail ≤ level.detail).map Record.line

end LuaGlue
