import LiveForms.CommandLine
import LiveForms.Screen.Frame
import LiveForms.Session.Keys

/-!
# Live forms: the program

The program reads the files that a command may see, runs the command, and writes what
it reports. A session goes on with the lines of the standard input: each names a key,
and the screen is written after each. A line may hold modifiers before the key, as in
`ctrl n`.
-/

namespace LiveForms
namespace Main

/-- The content of a file, if it can be read. -/
def readFile? (path : String) : IO (Option ByteArray) := do
  try
    return some (← IO.FS.readBinFile path)
  catch _ =>
    return none

/-- The files with their names and contents, those left out that cannot be read. -/
def readFiles (paths : List String) : IO (List (String × ByteArray)) :=
  paths.filterMapM fun path => do
    return (← readFile? path).map fun bytes => (path, bytes)

/-- A directory of the user, given its variable and its place in the home directory. -/
def userDirectory (variableName inHome : String) : IO String := do
  match ← IO.getEnv variableName, ← IO.getEnv "HOME" with
  | some directory, _ => return directory
  | none, some home => return home ++ "/" ++ inHome
  | none, none => return "/tmp"

/-- The files that a command can see. -/
def gatherFiles (arguments : List String) : IO CommandLine.Files := do
  let environment ← IO.getEnv "TFORMS_CONFIG"
  let named := ((CommandLine.parse? arguments).map CommandLine.Request.paths).getD []
  let contents ← readFiles (named ++ environment.toList)
  let user ← readFile? ((← userDirectory "XDG_CONFIG_HOME" ".config") ++ "/tforms/config.toml")
  let files : CommandLine.Files :=
    { read := fun path => contents.lookup path
      environment := environment
      user := user
      cache := ← userDirectory "XDG_CACHE_HOME" ".cache" }
  let onTheWay ← readFiles (CommandLine.logTrail arguments files)
  return { files with read := fun path => (contents ++ onTheWay).lookup path }

/-- A session without a clipboard. -/
def noClipboard : Clipboard :=
  fun _ => .error "clipboard unavailable"

/-- A key with its modifiers. -/
def keyOfLine? (line : String) : Option (Key × Modifiers) :=
  match (line.splitOn " ").reverse with
  | [] => none
  | name :: modifiers =>
      (Key.ofName? name).map fun key =>
        (key,
          { ctrl := modifiers.contains "ctrl"
            shift := modifiers.contains "shift"
            alt := modifiers.contains "alt" })

/-- Writes the screen of a session. -/
def draw (s : Session) : IO Unit := do
  for row in Screen.frame s 80 24 do
    IO.println (String.join (row.map Cell.symbol))

/-- Runs a session until the user quits or the input ends. -/
partial def interact (input : IO.FS.Stream) (s : Session) : IO Unit := do
  draw s
  let line ← input.getLine
  unless line.isEmpty do
    match keyOfLine? (String.ofList (line.toList.filter (· != '\n'))) with
    | none => interact input s
    | some (key, modifiers) =>
        unless s.isQuit key do
          interact input (s.press noClipboard key modifiers)

end Main
end LiveForms

open LiveForms in
/-- Runs the command with its arguments. -/
def main (arguments : List String) : IO UInt32 := do
  match CommandLine.run arguments (← Main.gatherFiles arguments) with
  | .finished report =>
      IO.print report.output
      IO.eprint report.errors
      return UInt32.ofNat report.exitCode
  | .session s =>
      Main.interact (← IO.getStdin) s
      return 0
