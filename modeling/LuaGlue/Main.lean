import LuaGlue.Execute

namespace LuaGlue

def FileError.ofSystem : IO.Error → FileError
  | .noFileOrDirectory .. => .notFound
  | e => .system (toString e)

/-- The bytes at a path, or why there are none. -/
def readBytes (path : String) : IO (Except FileError ByteArray) := do
  match ← (IO.FS.readBinFile path).toBaseIO with
  | .ok bytes => return .ok bytes
  | .error e => return .error (.ofSystem e)

/-- What can be found at the paths of a command line. -/
def contentsOf (args : CommandLine) : IO Contents := do
  let input ← readBytes args.input
  let config ← match args.config with
    | none => pure input
    | some path => readBytes path
  return fun path => if some path = args.config then config else input

def Reason.message : Reason → String
  | text message => message
  | json .truncated => "the text ends too early"
  | json .malformed => "the text is not JSON"
  | json (.mismatch cause) => cause.message

def report (failure : Failure) : IO UInt32 := do
  IO.eprintln ("Error: " ++ String.intercalate ": " (failure.reasons.map Reason.message))
  return 1

/-- Wraps the input of a command line and writes the output. Both files are read first, and what is
written is decided without any effects. -/
def runCommand (args : CommandLine) : IO UInt32 := do
  let wrapping := wrap (← contentsOf args) args
  for line in Level.info.lines wrapping.records do
    IO.eprintln line
  match wrapping.result with
  | .error failure => report failure
  | .ok bytes =>
    match args.output with
    | none =>
      let out ← IO.getStdout
      out.write bytes
      out.flush
      return 0
    | some path =>
      match ← (IO.FS.writeBinFile path bytes).toBaseIO with
      | .ok _ => return 0
      | .error e => report (.writing path (.ofSystem e))

def usage : String :=
  Text.ofLines
    ["Usage: luaglue [OPTIONS] <INPUT>",
     "",
     "Options:",
     "  -o, --output <FILE>  write the generated code here instead of printing it",
     "  -c, --config <FILE>  settings in JSON",
     "  -h, --help           print this text",
     "  -V, --version        print the version"]

def explain (stop : CommandLine.Stop) : IO UInt32 := do
  match stop with
  | .help => IO.print usage
  | .version => IO.println "luaglue 0.1.0"
  | _ => IO.eprint usage
  return stop.exitCode.toUInt32

end LuaGlue

def main (args : List String) : IO UInt32 :=
  match LuaGlue.CommandLine.parse args with
  | .error stop => LuaGlue.explain stop
  | .ok args => LuaGlue.runCommand args
