import ChangeReview.Usage.Command

/-!
The usage command as a program: it looks the log up in the file system, prints what the command
prints and ends as it ends.
-/
open ChangeReview

/-- What stands at a path of the file system. -/
def lookUp (path : Text) : IO (Except PathFault Node) := do
  try
    let content ← IO.FS.readBinFile (String.ofList path)
    return .ok (.file content 0)
  catch
    | .noFileOrDirectory .. => return .error .absent
    | _ => return .ok .folder

def main (arguments : List String) : IO UInt32 := do
  let path := Usage.logPath (arguments.map String.toList)
  let printed := Usage.reportAt path (← lookUp path)
  (← IO.getStdout).putStr (String.ofList printed.output)
  (← IO.getStderr).putStr (String.ofList printed.errors)
  match printed.outcome with
  | .ok () => return 0
  | .error (.exit code) => return code.toNat.toUInt32
  | .error fault =>
    (← IO.getStderr).putStrLn (String.ofList fault.message)
    return 1
