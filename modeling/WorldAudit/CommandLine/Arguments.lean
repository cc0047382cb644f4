import WorldAudit.Audit.Settings
import WorldAudit.Number.Read
import WorldAudit.Text.Search
/-!
# Arguments — what the command line asks for

Options may stand anywhere among the paths, up to a lone `--`, after which everything is a path.  The value of a long
option follows it, or stands behind an equals sign; only there may it start with a hyphen.
-/
namespace WorldAudit
namespace CommandLine

/-- What has been read of the command line. -/
structure Options where
  paths : List String := []
  mode : Option Mode := none
  minInhabitants : Option Nat := none
  duplicateThreshold : Option Number.Single := none
  similarNames : Bool := false

/-- What a command line asks for. -/
inductive Request where
  /-- The help on the arguments, which shows the mode that the environment sets. -/
  | help (environment : Option String)
  /-- The version of the program. -/
  | version
  | audit (options : Options)
  /-- The arguments make no sense. -/
  | refused

/-- An option that takes a value. -/
inductive Valued where
  | mode
  | minInhabitants
  | duplicateThreshold

def Valued.ofName? (name : List Char) : Option Valued :=
  if name = "mode".toList then some .mode
  else if name = "min-inhabitants".toList then some .minInhabitants
  else if name = "duplicate-threshold".toList then some .duplicateThreshold
  else none

/-- The options with a value set, unless the value is none or the option has been given before. -/
def Options.set? (o : Options) (option : Valued) (value : List Char) : Option Options :=
  match option with
  | .mode =>
    if o.mode.isSome then none
    else (Mode.parse false (String.ofList value)).toOption.map fun m => { o with mode := some m }
  | .minInhabitants =>
    if o.minInhabitants.isSome then none
    else (Number.readCount? value).map fun n => { o with minInhabitants := some n }
  | .duplicateThreshold =>
    if o.duplicateThreshold.isSome then none
    else (Number.readBinary? .single value).map fun x => { o with duplicateThreshold := some x }

/-- The options with one more path; a path is not empty. -/
def Options.addPath? (o : Options) (path : String) : Option Options :=
  if path.isEmpty then none else some { o with paths := o.paths ++ [path] }

/-- What an argument is. -/
inductive Argument where
  /-- The lone `--`. -/
  | pathsOnly
  /-- A long option with the value behind its equals sign. -/
  | long (name : List Char) (value : Option (List Char))
  /-- Letters behind one hyphen. -/
  | short (letters : List Char)
  | plain

def Argument.ofChars : List Char → Argument
  | '-' :: '-' :: rest =>
    if rest.isEmpty then .pathsOnly
    else .long (rest.takeWhile (· != '=')) ((rest.dropWhile (· != '=')).tail?)
  | '-' :: c :: rest => .short (c :: rest)
  | _ => .plain

/-- What the letters of a short option do: `v` asks for a fuller log, `h` for the help, `V` for the version. -/
inductive Letters where
  | nothing
  | help
  | version
  | refused

def Letters.ofChars : List Char → Letters
  | [] => .nothing
  | 'v' :: rest => Letters.ofChars rest
  | 'h' :: _ => .help
  | 'V' :: _ => .version
  | _ => .refused

/-- Reads arguments of which all are paths. -/
def readPaths (o : Options) : List String → Option Options
  | [] => some o
  | path :: rest => (o.addPath? path).bind fun o => readPaths o rest

/-- Reads arguments in an environment that sets a mode or none; `due` is the option whose value is to come. -/
def readArguments (environment : Option String) (o : Options) (due : Option Valued) : List String → Request
  | [] => if due.isSome then .refused else .audit o
  | arg :: rest =>
    match Argument.ofChars arg.toList, due with
    | .plain, some option =>
      match o.set? option arg.toList with
      | some o => readArguments environment o none rest
      | none => .refused
    | .plain, none =>
      match o.addPath? arg with
      | some o => readArguments environment o none rest
      | none => .refused
    | _, some _ => .refused
    | .pathsOnly, none =>
      match readPaths o rest with
      | some o => .audit o
      | none => .refused
    | .short letters, none =>
      match Letters.ofChars letters with
      | .nothing => readArguments environment o none rest
      | .help => .help environment
      | .version => .version
      | .refused => .refused
    | .long name (some value), none =>
      match (Valued.ofName? name).bind fun option => o.set? option value with
      | some o => readArguments environment o none rest
      | none => .refused
    | .long name none, none =>
      match Valued.ofName? name with
      | some option => readArguments environment o (some option) rest
      | none =>
        if name = "names".toList then
          if o.similarNames then .refused else readArguments environment { o with similarNames := true } none rest
        else if name = "verbose".toList then readArguments environment o none rest
        else if name = "help".toList then .help environment
        else if name = "version".toList then .version
        else .refused

/-- Takes the mode from the environment, where one is set and the command line names none. -/
def Options.withDefaultMode? (o : Options) (environment : Option String) : Option Options :=
  match o.mode, environment with
  | none, some name => (Mode.parse false name).toOption.map fun m => { o with mode := some m }
  | _, _ => some o

/-- What the arguments ask for, given the mode that the environment sets. -/
def request (arguments : List String) (environment : Option String) : Request :=
  match readArguments environment {} none arguments with
  | .audit o =>
    match o.withDefaultMode? environment with
    | some o => if o.paths.isEmpty then .refused else .audit o
    | none => .refused
  | other => other

def Options.settings (o : Options) : Settings where
  mode := o.mode
  minInhabitants := o.minInhabitants
  duplicateThreshold := o.duplicateThreshold.getD .zero
  similarNames := o.similarNames

end CommandLine
end WorldAudit
