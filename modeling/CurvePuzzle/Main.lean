import CurvePuzzle.CommandLine

/-!
# The program

Reads the settings file that the arguments name, runs the invocation, and prints what it gives.
-/

set_option autoImplicit false

open CurvePuzzle

/-- What a file holds; one that cannot be opened counts as missing. -/
def readContent (path : String) : IO FileContent := do
  try
    return .bytes (← IO.FS.readBinFile path)
  catch _ =>
    return .missing

/-- What the settings file of an invocation holds. -/
def settingsContent : Invocation → IO FileContent
  | .play ⟨some path, _, _⟩ => readContent path
  | _ => return .missing

def main (args : List String) : IO UInt32 := do
  let invocation := Invocation.parse args
  let transcript := invocation.run (← settingsContent invocation)
  IO.print transcript.stdout
  IO.eprint transcript.stderr
  return transcript.exit
