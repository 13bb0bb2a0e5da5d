namespace LuaGlue

/-- What a command line asks for: one input, and optionally an output and a settings file. -/
structure CommandLine where
  input : String
  output : Option String
  config : Option String
  deriving DecidableEq

namespace CommandLine

/-- Why a command line does not lead to a run. -/
inductive Stop where
  | help
  | version
  | unknownArgument
  /-- A flag was given a value. -/
  | unneededValue
  /-- A value is missing or empty. -/
  | invalidValue
  | conflict
  | missingInput
  deriving DecidableEq

/-- Requests for information are no failures. -/
def Stop.exitCode : Stop → Nat
  | help => 0
  | version => 0
  | _ => 2

/-- The arguments that have a value. -/
inductive Slot where
  | input
  | output
  | config
  deriving DecidableEq

/-- What an option is for: it stops the run, or it takes a value. -/
inductive Meaning where
  | stop (stop : Stop)
  | value (slot : Slot)

/-- The options by their long names. They must not be abbreviated. -/
def long? (name : String) : Option Meaning :=
  match name with
  | "output" => some (.value .output)
  | "config" => some (.value .config)
  | "help" => some (.stop .help)
  | "version" => some (.stop .version)
  | _ => none

def short? (letter : Char) : Option Meaning :=
  match letter with
  | 'o' => some (.value .output)
  | 'c' => some (.value .config)
  | 'h' => some (.stop .help)
  | 'V' => some (.stop .version)
  | _ => none

inductive Form where
  /-- Two dashes alone: no options follow. -/
  | dashes
  | long (name : String) (value : Option String)
  | short (letter : Char) (rest : List Char)
  /-- No option. A single dash is one of these. -/
  | plain

def formOf (word : List Char) : Form :=
  match word with
  | ['-', '-'] => .dashes
  | '-' :: '-' :: rest =>
    let name := String.ofList (rest.takeWhile (· ≠ '='))
    match rest.dropWhile (· ≠ '=') with
    | [] => .long name none
    | _ :: value => .long name (some (String.ofList value))
  | '-' :: letter :: rest => .short letter rest
  | _ => .plain

/-- The value that is attached to a letter, with or without an equals sign. -/
def attached? (rest : List Char) : Option String :=
  match rest with
  | [] => none
  | '=' :: value => some (String.ofList value)
  | value => some (String.ofList value)

structure Scan where
  input : Option String := none
  output : Option String := none
  config : Option String := none
  /-- The argument that was taken up last, and its value if it has one by now. -/
  pending : Option (Slot × Option String) := none
  /-- No more options follow. -/
  literal : Bool := false

namespace Scan

def given (s : Scan) : Slot → Option String
  | .input => s.input
  | .output => s.output
  | .config => s.config

def give (s : Scan) (slot : Slot) (value : String) : Scan :=
  match slot with
  | .input => { s with input := value }
  | .output => { s with output := value }
  | .config => { s with config := value }

/-- Checks the pending argument: it needs a value, it must be the first of its kind, and the value
must not be empty, in this order. -/
def settle (s : Scan) : Except Stop Scan :=
  match s.pending with
  | none => .ok s
  | some (_, none) => .error .invalidValue
  | some (slot, some value) =>
    if (s.given slot).isSome then .error .conflict
    else if value = "" then .error .invalidValue
    else .ok ({ s with pending := none }.give slot value)

def hasInput (s : Scan) : Bool :=
  s.input.isSome || s.pending.any fun pending => pending.1 = .input

/-- Takes up an input. There is only one. -/
def takeInput (s : Scan) (word : String) : Except Stop Scan :=
  if s.hasInput then .error .unknownArgument
  else s.settle.map fun s => { s with pending := some (.input, some word) }

/-- Takes up an option. An attached value is checked at once. -/
def takeOption (s : Scan) (slot : Slot) (attached : Option String) : Except Stop Scan :=
  match s.settle with
  | .error stop => .error stop
  | .ok s =>
    let s := { s with pending := some (slot, attached) }
    if attached.isSome then s.settle else .ok s

/-- Stops, unless the pending argument is at fault. -/
def stopAt (s : Scan) (stop : Stop) : Except Stop Scan :=
  match s.settle with
  | .error earlier => .error earlier
  | .ok _ => .error stop

def take (s : Scan) (word : String) : Except Stop Scan :=
  if s.literal then s.takeInput word
  else
    match formOf word.toList with
    | .dashes => .ok { s with literal := true }
    | .long name value =>
      match long? name with
      | none => .error .unknownArgument
      | some (.stop stop) => if value.isSome then .error .unneededValue else s.stopAt stop
      | some (.value slot) => s.takeOption slot value
    | .short letter rest =>
      match short? letter with
      | none => .error .unknownArgument
      | some (.stop stop) => s.stopAt stop
      | some (.value slot) => s.takeOption slot (attached? rest)
    | .plain =>
      match s.pending with
      | some (slot, none) => .ok { s with pending := some (slot, some word) }
      | _ => s.takeInput word

/-- What is asked for when no argument is left. -/
def finish (s : Scan) : Except Stop CommandLine :=
  match s.settle with
  | .error stop => .error stop
  | .ok s =>
    match s.input with
    | none => .error .missingInput
    | some input => .ok ⟨input, s.output, s.config⟩

end Scan

/-- Reads the arguments from left to right. The value of an argument is only checked when the next
one is taken up, so an unknown argument is reported before a bad value in front of it. -/
def parse (args : List String) : Except Stop CommandLine :=
  match args.foldlM Scan.take {} with
  | .error stop => .error stop
  | .ok s => s.finish

end CommandLine

end LuaGlue
