import MiniC.CommandLine

/-!
# `MiniC.Main` — the program

The outer layer: it looks whether there is a file, reads it, writes what the run has to say and
exits.
-/

/-- Whether a path leads to something. -/
def exists? (path : String) : IO Bool := do
  try
    let _ ← IO.FS.realPath path
    return true
  catch _ =>
    return false

/-- Why something cannot be read. -/
def MiniC.OsError.ofIO : IO.Error → MiniC.OsError
  | .inappropriateType .. => .isDirectory
  | .permissionDenied .. => .permissionDenied
  | error => ⟨0, "Uncategorized", toString error⟩

/-- What a path leads to. -/
def reach (path : String) : IO MiniC.Reached := do
  if ← exists? path then
    try
      return .file (← IO.FS.readBinFile path)
    catch error =>
      return .unreadable (.ofIO error)
  else
    return .nothing

/-- Run with the arguments of the command line. -/
def main (args : List String) : IO UInt32 := do
  let terminal ← (← IO.getStderr).isTty
  let reached ←
    match MiniC.CommandLine.Options.ofArgs terminal args with
    | .ok (input, _) => reach input
    | .error _ => pure .nothing
  let outcome := MiniC.CommandLine.run "minic" terminal (fun _ => reached) args
  IO.eprint outcome.errors
  IO.print outcome.output
  return outcome.code.toUInt32
