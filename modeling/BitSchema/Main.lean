import BitSchema.Command

/-!
# The program

Runs the command on the files of the system.  Files are looked at only when the command asks for them:
a run that meets a path nobody has looked at yet is repeated with one more path known.
-/

namespace BitSchema.Command

/-- The system's number for "is a directory". -/
def directoryCode : UInt32 := 21

def lookUp (path : String) : IO Entry := do
  match ← (IO.FS.readFile path).toBaseIO with
  | .ok content => return .file (← IO.FS.realPath path).toString content
  | .error (.inappropriateType _ code _) =>
    if code = directoryCode then return .directory (← IO.FS.realPath path).toString
    else return .notDirectory
  | .error (.noFileOrDirectory ..) => return .missing
  | .error e => throw e

partial def attempt (cwd : String) (args : List String) (known : List (String × Entry)) :
    IO Result := do
  let r := run (.ofList cwd known) "bitproto" args
  match r.exit with
  | .error (.fileUnread path) => attempt cwd args ((path, ← lookUp path) :: known)
  | _ => return r

end BitSchema.Command

open BitSchema BitSchema.Command in
/-- The program: runs the command, writes its files and its texts, and gives its exit code. -/
def main (args : List String) : IO UInt32 := do
  let r ← attempt (← IO.currentDir).toString args []
  for o in r.outputs do
    IO.FS.writeFile o.path o.content
  IO.print (textOf r.stdout)
  IO.eprint (textOf r.stderr)
  match r.exit with
  | .ok code => return code.toUInt32
  | .error f =>
    IO.eprintln f.message
    return 1
