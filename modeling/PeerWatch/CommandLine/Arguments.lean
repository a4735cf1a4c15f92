/-!
# The arguments

The prober takes two options with values, the path of a settings file and a
filter of log lines, each at most once, and two flags that print something
instead.  A value stands behind its option, as the next argument unless that
looks like an option, or joined to it.  Arguments count from left to right,
and the first flag or fault decides.

* `Request.ofArguments` — what is asked for, or why it cannot be told.
-/

namespace PeerWatch.CommandLine

/-- An option that takes a value. -/
inductive ValueOption where
  | config
  | logLevel
deriving DecidableEq, Repr

/-- How an option is written together with its value. -/
def ValueOption.usage : ValueOption → String
  | .config => "--config <CONFIG>"
  | .logLevel => "--log-level <LOG_LEVEL>"

/-- Why arguments cannot be followed. -/
inductive UsageError where
  | unexpected (argument : String)
  | unneeded (flag value : String)
  | missing (option : ValueOption)
  | repeated (option : ValueOption)
deriving DecidableEq, Repr

/-- How the program is called, in a line. -/
def usage : String := "Usage: peer-prober [OPTIONS]"

/-- What whoever called the program wrongly is told. -/
def UsageError.message (e : UsageError) : String :=
  let hint := "For more information, try '--help'."
  match e with
  | .unexpected argument =>
    "error: unexpected argument '" ++ argument ++ "' found\n\n" ++ usage ++ "\n\n" ++ hint
  | .unneeded flag value =>
    "error: unexpected value '" ++ value ++ "' for '" ++ flag
      ++ "' found; no more were expected\n\n" ++ usage ++ "\n\n" ++ hint
  | .missing option =>
    "error: a value is required for '" ++ option.usage ++ "' but none was supplied\n\n" ++ hint
  | .repeated option =>
    "error: the argument '" ++ option.usage ++ "' cannot be used multiple times\n\n" ++ usage
      ++ "\n\n" ++ hint

/-- What can be chosen by arguments. -/
structure Choices where
  settingsPath : Option String
  logFilter : Option String
deriving DecidableEq, Repr

namespace Choices

def none : Choices := ⟨.none, .none⟩

/-- What was chosen with an option. -/
def value? (c : Choices) : ValueOption → Option String
  | .config => c.settingsPath
  | .logLevel => c.logFilter

/-- Chooses a value for an option; a path cannot be empty. -/
def choose (c : Choices) (option : ValueOption) (value : String) : Except UsageError Choices :=
  if (c.value? option).isSome then .error (.repeated option)
  else
    match option with
    | .config =>
      if value.isEmpty then .error (.missing option) else .ok { c with settingsPath := some value }
    | .logLevel => .ok { c with logFilter := some value }

end Choices

/-- What the arguments ask for. -/
inductive Request where
  | run (choices : Choices)
  | help
  | version
deriving DecidableEq, Repr

/-- What one argument says, taken by itself. -/
inductive Token where
  /-- All that follows is taken as it stands. -/
  | terminator
  | help
  | version
  /-- An option, perhaps with its value. -/
  | option (option : ValueOption) (value : Option String)
  | fault (e : UsageError)
deriving DecidableEq, Repr

namespace Token

/-- A flag to which nothing may be joined. -/
def ofFlag (flag : String) (token : Token) : Option String → Token
  | none => token
  | some value => .fault (.unneeded flag value)

/-- An argument after two hyphens, by its name and what stands behind `=`. -/
def ofLong (argument name : String) (value : Option String) : Token :=
  if name = "config" then .option .config value
  else if name = "log-level" then .option .logLevel value
  else if name = "help" then ofFlag "--help" .help value
  else if name = "version" then ofFlag "--version" .version value
  else .fault (.unexpected argument)

/-- An argument after one hyphen; behind a letter that takes a value, the rest
is that value. -/
def ofShort (argument : String) : List Char → Token
  | 'h' :: _ => .help
  | 'V' :: _ => .version
  | ['c'] => .option .config none
  | 'c' :: '=' :: value => .option .config (some (String.ofList value))
  | 'c' :: value => .option .config (some (String.ofList value))
  | _ => .fault (.unexpected argument)

/-- The token of an argument, by the hyphens it begins with. -/
def ofArgument (argument : String) : Token :=
  match argument.toList with
  | ['-', '-'] => .terminator
  | '-' :: '-' :: text =>
    let name := text.takeWhile (· ≠ '=')
    let value := match text.drop name.length with
      | _ :: value => some (String.ofList value)
      | [] => none
    ofLong argument (String.ofList name) value
  | '-' :: c :: rest => ofShort argument (c :: rest)
  | _ => .fault (.unexpected argument)

end Token

/-- Whether an argument can be the value of the option before it. -/
def isValue (argument : String) : Bool :=
  argument.toList.head? ≠ some '-' || argument = "-"

namespace Request

/-- Follows the arguments, given what was chosen before them. -/
def follow (c : Choices) : List String → Except UsageError Request
  | [] => .ok (.run c)
  | argument :: rest =>
    match Token.ofArgument argument with
    | .terminator =>
      match rest with
      | [] => .ok (.run c)
      | argument :: _ => .error (.unexpected argument)
    | .help => .ok .help
    | .version => .ok .version
    | .fault e => .error e
    | .option option (some value) =>
      match c.choose option value with
      | .error e => .error e
      | .ok c => follow c rest
    | .option option none =>
      match rest with
      | [] => .error (.missing option)
      | value :: rest =>
        if isValue value then
          match c.choose option value with
          | .error e => .error e
          | .ok c => follow c rest
        else .error (.missing option)

/-- What is asked for by all arguments together. -/
def ofArguments (arguments : List String) : Except UsageError Request := follow .none arguments

end Request

/-- The name of the program and its version. -/
def versionText : String := "peer-prober 0.1.0"

/-- What the program does, and how it is called. -/
def helpText : String :=
  "Probe peers and record liveness history\n\n" ++ usage ++ "\n\n" ++
  "Options:\n" ++
  "  -c, --config <CONFIG>        Path to the TOML configuration file\n" ++
  "      --log-level <LOG_LEVEL>  Log filter directive, overrides the configured level\n" ++
  "  -h, --help                   Print help\n" ++
  "  -V, --version                Print version"

end PeerWatch.CommandLine
