import LiveForms.Config
import LiveForms.Page.Reader
import LiveForms.Path
import LiveForms.Session.Basic

/-!
# Live forms: the command line

The command takes the file of a page and three options. An option with a value is
written `--name value` or `--name=value` and may be given once; a value that follows
its option may not start with a hyphen, unless it is a lone hyphen. After `--` every
argument is a file. The first argument that asks for help or for the version, or that
cannot be understood, decides.

Main definitions:

* `CommandLine.Request`, `CommandLine.parse?`: what the arguments ask for.
* `CommandLine.run`: the outcome of a command, given the files it may read.
-/

namespace LiveForms
namespace CommandLine

/-- The options of a command that opens a page. -/
structure Options where
  page : Option String := none
  config : Option String := none
  logFile : Option String := none
  print : Bool := false
deriving DecidableEq, Repr, Inhabited

/-- What the arguments ask for. -/
inductive Request where
  | help
  | version
  | openPage (options : Options)
deriving DecidableEq, Repr

/-- An option that takes a value. -/
inductive Setting where
  | config
  | logFile
deriving DecidableEq, Repr

namespace Options

/-- Sets the value of an option; it may not be empty and not be set twice. -/
def set? (o : Options) (setting : Setting) (value : String) : Option Options :=
  if value = "" then
    none
  else
    match setting with
    | .config => if o.config.isSome then none else some { o with config := some value }
    | .logFile => if o.logFile.isSome then none else some { o with logFile := some value }

/-- Sets the page; there may be only one, and its name may not be empty. -/
def setPage? (o : Options) (page : String) : Option Options :=
  if page = "" ∨ o.page.isSome then none else some { o with page := some page }

end Options

/-- The option with a name. -/
def setting? (name : String) : Option Setting :=
  if name = "config" then
    some .config
  else if name = "log-file" then
    some .logFile
  else
    none

/-- An argument of two hyphens and a name, and its value if one is attached. -/
def long? (argument : String) : Option (String × Option String) :=
  match argument.toList with
  | '-' :: '-' :: cs =>
      let name := String.ofList (cs.takeWhile (· != '='))
      match cs.dropWhile (· != '=') with
      | _ :: value => some (name, some (String.ofList value))
      | [] => some (name, none)
  | _ => none

/-- Whether an argument starts with a hyphen and is longer. -/
def isHyphenated (argument : String) : Bool :=
  match argument.toList with
  | '-' :: _ :: _ => true
  | _ => false

/-- What an argument of one hyphen and letters asks for. -/
def short? (argument : String) : Option Request :=
  match argument.toList with
  | '-' :: 'h' :: _ => some .help
  | '-' :: 'V' :: _ => some .version
  | _ => none

/-- Reads the arguments after `--`. -/
def parseFiles? (o : Options) : List String → Option Request
  | [] => some (.openPage o)
  | argument :: rest =>
      match o.setPage? argument with
      | some o => parseFiles? o rest
      | none => none

/--
What the arguments ask for, or nothing if they cannot be understood. `waiting` is an
option that still needs its value.
-/
def parseFrom? (o : Options) (waiting : Option Setting) : List String → Option Request
  | [] => if waiting.isSome then none else some (.openPage o)
  | argument :: rest =>
      match waiting with
      | some setting =>
          if isHyphenated argument then
            none
          else
            match o.set? setting argument with
            | some o => parseFrom? o none rest
            | none => none
      | none =>
          match long? argument with
          | some ("", none) => parseFiles? o rest
          | some ("help", none) => some .help
          | some ("version", none) => some .version
          | some ("print", none) =>
              if o.print then none else parseFrom? { o with print := true } none rest
          | some (name, value) =>
              match setting? name, value with
              | some setting, some value =>
                  match o.set? setting value with
                  | some o => parseFrom? o none rest
                  | none => none
              | some setting, none => parseFrom? o (some setting) rest
              | none, _ => none
          | none =>
              if isHyphenated argument then
                short? argument
              else
                match o.setPage? argument with
                | some o => parseFrom? o none rest
                | none => none

/-- What the arguments ask for, or nothing if they cannot be understood. -/
def parse? (arguments : List String) : Option Request :=
  parseFrom? {} none arguments

/-- The files that a request names. -/
def Request.paths : Request → List String
  | .openPage o => o.page.toList ++ o.config.toList
  | _ => []

/-- The line that shows how the command is used. -/
def usageLine : String :=
  "Usage: tforms [OPTIONS] [PAGE]"

/-- The answer to a request for help. -/
def helpText : String :=
  "Live formula forms in the terminal\n\n" ++ usageLine ++ "\n\n" ++
  "Arguments:\n" ++
  "  [PAGE]  Page definition (JSON); the built-in demo page when omitted\n\n" ++
  "Options:\n" ++
  "      --config <CONFIG>      Config file (TOML); falls back to $TFORMS_CONFIG, " ++
  "then the user config dir\n" ++
  "      --log-file <LOG_FILE>  Write logs here instead of the configured file\n" ++
  "      --print                Print every formula result once and exit\n" ++
  "  -h, --help                 Print help\n" ++
  "  -V, --version              Print version\n"

/-- The answer to a request for the version. -/
def versionText : String :=
  "tforms 0.1.0\n"

/-- What a command writes, and its exit code. -/
structure Report where
  exitCode : Nat := 0
  output : String := ""
  errors : String := ""
deriving DecidableEq, Repr

/-- The outcome of a command. -/
inductive Outcome where
  | finished (report : Report)
  | session (s : Session)
deriving Repr

/-- The files that a command can see. -/
structure Files where
  /-- The content of the file with a name. -/
  read : String → Option ByteArray
  /-- The file that the environment names as configuration. -/
  environment : Option String := none
  /-- The content of the configuration of the user. -/
  user : Option ByteArray := none
  /-- The directory for files that can be lost. -/
  cache : String := "."

namespace Files

/-- The configuration that a command works with. -/
def config (files : Files) (o : Options) : Except ConfigError Config :=
  Config.load (o.config.map files.read) (files.environment.map files.read) files.user

/-- Whether a directory can be made: no place on the way to it is a file. -/
def hasRoomFor (files : Files) (directory : String) : Bool :=
  (Path.trail directory).all fun place => (files.read place).isNone

end Files

/-- A report of a failure. -/
def failure (message : String) : Outcome :=
  .finished { exitCode := 1, errors := "Error: " ++ message ++ "\n" }

/-- A report that the configuration at a path cannot be used. -/
def configFailure (path : String) : ConfigError → Outcome
  | .missing => failure ("reading " ++ path ++ ": No such file or directory (os error 2)")
  | .notText => failure ("reading " ++ path ++ ": stream did not contain valid UTF-8")
  | .malformed => failure ("parsing " ++ path)

/-- One line for every formula. -/
def printed (s : Session) : String :=
  String.join (s.formulaViews.map fun view => view.label ++ ": " ++ view.text ++ "\n")

/-- The outcome of opening a page with a configuration. -/
def openWith (o : Options) (files : Files) (config : Config) : Outcome :=
  match Page.load (o.page.map files.read) with
  | .error _ =>
      failure <|
        match o.page with
        | some path => "loading page " ++ path
        | none => "loading demo page"
  | .ok page =>
      match Session.ofPage page config.markup with
      | .error _ => failure "building page"
      | .ok s =>
          if o.print then .finished { output := printed s } else .session s

/-- The directory of the file in which messages are logged. -/
def logDirectory (o : Options) (files : Files) (config : Config) : String :=
  Path.directory (o.logFile.getD (config.logPath files.cache))

/-- The outcome of opening a page: the messages need a place before the page is read. -/
def openPage (o : Options) (files : Files) : Outcome :=
  match files.config o with
  | .error e => configFailure ((o.config <|> files.environment).getD "") e
  | .ok config =>
      let directory := logDirectory o files config
      if files.hasRoomFor directory then
        openWith o files config
      else
        failure ("creating log directory " ++ directory)

/-- The outcome of a command. -/
def run (arguments : List String) (files : Files) : Outcome :=
  match parse? arguments with
  | none => .finished { exitCode := 2, errors := usageLine ++ "\n" }
  | some .help => .finished { output := helpText }
  | some .version => .finished { output := versionText }
  | some (.openPage o) => openPage o files

/-- The places that must not be files for messages to be logged. -/
def logTrail (arguments : List String) (files : Files) : List String :=
  match parse? arguments with
  | some (.openPage o) =>
      match files.config o with
      | .ok config => Path.trail (logDirectory o files config)
      | .error _ => []
  | _ => []

end CommandLine
end LiveForms
