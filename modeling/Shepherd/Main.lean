import Shepherd.CommandLine.Perform

/-!
# The program

Reads the files that a command names, performs it with a fresh session, prints what it prints, and
ends with its exit code.
-/

open Shepherd CommandLine

/-- The octets of a file, if it can be read. -/
def readFile (name : String) : IO (Option (List UInt8)) := do
  try
    return some (← IO.FS.readBinFile name).toList
  catch _ =>
    return none

/-- The contents of files, by their names. -/
def readFiles (names : List String) : IO (List (String × List UInt8)) :=
  names.filterMapM fun name => return (← readFile name).map (name, ·)

def main (words : List String) : IO UInt32 := do
  let contents ← match Command.parse? words with
    | some command => readFiles command.files
    | none => pure []
  let (session, _) := Script.Session.fresh (mkStdGen (← IO.rand 0 (Nat.pow 2 62)))
  let ending := performWords (fun name => contents.lookup name) session words
  IO.sleep (UInt32.ofNat ending.pause)
  IO.print ending.stdout
  return ending.exitCode
