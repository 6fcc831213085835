import Shepherd.CommandLine.Command
import Shepherd.Data.Json.Printer
import Shepherd.Grid.Level.File
import Shepherd.Grid.Report
import Shepherd.Sandbox.Reader
import Shepherd.Playthrough

/-!
# Performing commands

What a command prints and how it ends, from the contents of the files it names. Words that make up
no command end with code 2; whatever else goes wrong ends with code 1, and prints nothing unless the
script was run.
-/

namespace Shepherd.CommandLine
open Grid Sandbox Host Script

/-- The end of a command: its exit code, what it printed, and for how many milliseconds it paused
before. -/
structure Ending where
  exitCode : UInt32
  stdout : String
  pause : Nat
  deriving DecidableEq

namespace Ending

/-- Something went wrong. -/
def failed : Ending := ⟨1, "", 0⟩

/-- The words make up no command. -/
def misused : Ending := ⟨2, "", 0⟩

/-- All went well. -/
def printed (text : String) : Ending := ⟨0, text, 0⟩

end Ending

/-- The contents of files by their names. -/
abbrev Files := String → Option (List UInt8)

/-- The text of a file. -/
def Files.text? (files : Files) (name : String) : Option String := (fileText (files name)).toOption

/-- The name and version of the program. -/
def versionLine : String := "sheepcraft 0.1.0\n"

/-- One line per action: the signature in a column of twenty characters, and the description. -/
def docsText : String :=
  String.join (Action.documentation.map fun (signature, description) =>
    signature ++ String.ofList (List.replicate (20 - signature.length) ' ') ++ " " ++ description ++
      "\n")

/-- The configuration of the host. -/
def config? (files : Files) : Option String → Option Config
  | none => some .default
  | some name => (files.text? name).bind Config.ofToml?

/-- A runner whose guest is started. -/
def started? (files : Files) (sources : Sources) : Option (Runner UInt32) := do
  let config ← config? files sources.config
  let scenario ← (files.text? sources.guest).bind Scenario.ofJson?
  match (Runner.new scenario.toGuest config).init with
  | (.ok (), r) => some r
  | (.error _, _) => none

/-- What a finished run prints: the script's own lines and the state of the objectives. -/
def runText (report : RunReport) : String :=
  String.join (report.output.map fun line => String.ofList line ++ "\n") ++
    Data.Json.pretty 0 report.solve.toTree ++ "\n"

/-- Runs a script on a level. -/
def performRun (files : Files) (session : Session) (sources : Sources) (level : String)
    (delay : Nat) : Option Ending := do
  let source ← files.text? sources.script
  let board ← (Board.load (files level)).toOption
  let r ← started? files sources
  let (report, _) := Playthrough.runPaced delay session r board source
  let report ← report.toOption
  return ⟨if report.solved then 0 else 1, runText report, report.pause⟩

/-- Prints what the guest answers about a script. -/
def performQuery (files : Files) (sources : Sources)
    (query : Runner UInt32 → List Char → List Char → Except HostError (List Char) × Runner UInt32) :
    Option Ending := do
  let source ← files.text? sources.script
  let r ← started? files sources
  let text ← (query r entryName source.toList).1.toOption
  return .printed (String.ofList text ++ "\n")

/-- Performs a command. -/
def perform (files : Files) (session : Session) : Command → Ending
  | .version => .printed versionLine
  | .docs => .printed docsText
  | .run sources level delay => (performRun files session sources level delay).getD .failed
  | .tokenize sources => (performQuery files sources Runner.tokenize).getD .failed
  | .parse sources => (performQuery files sources Runner.parse).getD .failed

/-- Performs the command that the words make up. -/
def performWords (files : Files) (session : Session) (words : List String) : Ending :=
  match Command.parse? words with
  | none => .misused
  | some command => perform files session command

end Shepherd.CommandLine
