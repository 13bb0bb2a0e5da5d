import LuaGlue.CommandLine
import LuaGlue.FileTree
import LuaGlue.Generate
import LuaGlue.Settings.Json

namespace LuaGlue

/-- The stage at which a run fails, with the path it is about and the cause. -/
inductive Failure where
  | reading (path : String) (cause : FileError)
  | loading (path : String) (cause : Json.Error)
  | wrapping (path : String) (cause : Error)
  | writing (path : String) (cause : FileError)
  deriving DecidableEq

/-- One part of the explanation of a failure. -/
inductive Reason where
  | text (message : String)
  | json (cause : Json.Error)
  deriving DecidableEq

/-- The explanation of a failure, from the stage to the cause. -/
def Failure.reasons : Failure → List Reason
  | reading path cause => [.text ("Reading " ++ path), .text cause.message]
  | loading path cause =>
    [.text ("Loading " ++ path), .text "Parsing generator config", .json cause]
  | wrapping path cause => [.text ("Wrapping " ++ path), .text cause.message]
  | writing path cause => [.text ("Writing " ++ path), .text cause.message]

abbrev Contents := String → Except FileError ByteArray

/-- The text of a file, which must be well formed. -/
def readText (contents : Contents) (path : String) : Except Failure String :=
  match contents path with
  | .error e => .error (.reading path e)
  | .ok bytes =>
    match String.fromUTF8? bytes with
    | none => .error (.reading path .notText)
    | some text => .ok text

def loadSettings (contents : Contents) (args : CommandLine) : Except Failure Settings :=
  match args.config with
  | none => .ok {}
  | some path =>
    match readText contents path with
    | .error failure => .error failure
    | .ok text =>
      match Settings.ofJson text with
      | .error e => .error (.loading path e)
      | .ok settings => .ok settings

/-- A description that was wrapped in memory, or why it was not. -/
structure Wrapping where
  records : List Record := []
  result : Except Failure ByteArray

/-- Loads the settings, reads the description and wraps it. -/
def wrap (contents : Contents) (args : CommandLine) : Wrapping :=
  match loadSettings contents args with
  | .error failure => ⟨[], .error failure⟩
  | .ok settings =>
    match readText contents args.input with
    | .error failure => ⟨[], .error failure⟩
    | .ok source =>
      let outcome := generate settings {} source
      match outcome.error with
      | some e => ⟨outcome.records, .error (.wrapping args.input e)⟩
      | none =>
        let registry := outcome.state.registry
        ⟨outcome.records ++ [.summary registry.size registry.memberCount],
          .ok outcome.state.sink.bytes⟩

structure Execution where
  tree : FileTree
  printed : ByteArray := .empty
  records : List Record := []
  failure : Option Failure := none

/-- Runs the program in a file tree. Nothing is written before the description is wrapped in memory,
so a run that fails changes nothing. Without an output path the text is printed. -/
def execute (args : CommandLine) (tree : FileTree) (refusals : Refusals := {}) : Execution :=
  let wrapping := wrap (tree.readUnless refusals) args
  match wrapping.result with
  | .error failure => { tree, records := wrapping.records, failure := some failure }
  | .ok bytes =>
    match args.output with
    | none => { tree, printed := bytes, records := wrapping.records }
    | some path =>
      match tree.writeUnless refusals path bytes with
      | .error e => { tree, records := wrapping.records, failure := some (.writing path e) }
      | .ok tree => { tree, records := wrapping.records }

end LuaGlue
