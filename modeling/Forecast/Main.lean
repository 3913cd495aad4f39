import Forecast.Command

/-!
# Program

Reads the files that the command line names, runs the command and writes its
answer.
-/

open Forecast

def readText (name : String) : IO (Except FileFault String) := do
  try
    return .ok (← IO.FS.readFile name)
  catch
    | .inappropriateType _ code _ => return .error (if code = 20 then .notDirectory else .directory)
    | .invalidArgument .. => return .error .longName
    | _ => return .error .missing

/-- The day that it is, by the time at which a new file is made. -/
def currentDay : IO Date := do
  let (_, file) ← IO.FS.createTempFile
  let made := (← file.metadata).modified.sec
  IO.FS.removeFile file
  return Nat.repeat Date.tomorrow (made.toNat / (24 * 60 * 60)) (Date.firstOf 1970 1)

partial def readAll (stream : IO.FS.Stream) (before : String) : IO String := do
  let line ← stream.getLine
  if line.isEmpty then return before else readAll stream (before ++ line)

def readSources (a : Command.Arguments) :
    IO (List (String × Except FileFault String) × String) := do
  let files ← a.files.mapM fun path => do
    let name := Command.plainPath path
    return (name, ← readText name)
  let input ← if a.model = "-" then readAll (← IO.getStdin) "" else pure ""
  return (files, input)

def deliver (r : Response) : IO UInt32 := do
  IO.print r.output
  IO.eprint r.complaint
  match r with
  | .written table out => if !out.isEmpty then IO.FS.writeFile (Command.plainPath out) table
  | _ => pure ()
  return r.code.toUInt32

def main (words : List String) : IO UInt32 := do
  let (files, input) ←
    match Command.Arguments.ofTexts words with
    | .ok a => readSources a
    | .error _ => pure ([], "")
  let answer :=
    Command.run (fun name => (files.lookup name).getD (.error .missing)) input words
      (← currentDay)
  for n in answer.notices do
    IO.eprintln ("WARNING " ++ n.text)
  match answer.outcome with
  | .ok r => deliver r
  | .error fault => do
    IO.eprintln fault.message
    return 1
