import GoFront.Command.Basic

/-!
# The program

Reads the files that the arguments name and prints the report.
-/

namespace GoFront

/-- Why the system could not read a file. -/
def readError : IO.Error → ReadError
  | .noFileOrDirectory .. => .missing
  | .inappropriateType _ 21 _ => .isFolder
  | .inappropriateType .. => .notFolder
  | e => .system (toString e)

/-- The text of a file. -/
def readText (path : Path) : IO (Except ReadError Text) := do
  try
    return decodeText (← IO.FS.readBinFile (String.ofList path))
  catch e => return .error (readError e)

/-- Answers a request with the files it may read. -/
def answer (request : Command.Request) : IO UInt32 := do
  let contents ← request.paths.mapM fun p => return (p, ← readText p)
  let report := request.answer fun p => (contents.lookup p).getD (.error .missing)
  IO.print (String.ofList report.output)
  IO.eprint (String.ofList report.errors)
  return report.code.toUInt32

end GoFront

/-- Runs the program on its arguments. -/
def main (args : List String) : IO UInt32 := do
  match GoFront.Command.parse (args.map String.toList) with
  | .ok request => GoFront.answer request
  | .error e =>
    IO.eprintln ("error: " ++ e.message)
    return 2
