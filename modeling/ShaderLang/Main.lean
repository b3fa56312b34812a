/-
**The command.**

Reads the file and prints what the run leaves.

Main definitions:

* `main` — the command.
-/

import ShaderLang.CommandLine

set_option relaxedAutoImplicit false
set_option autoImplicit false

namespace ShaderLang

/-- Why the system could not read a file. -/
def readErrorOf (e : IO.Error) : ReadError :=
  match e with
  | .noFileOrDirectory _ _ _ => .notFound
  | .permissionDenied _ _ _ => .notPermitted
  | .inappropriateType (some _) _ _ => .notDirectory
  | .inappropriateType none _ _ => .isDirectory
  | .invalidArgument _ code _ =>
      -- The system's numbers arrive negated.
      if code + 36 = 0 then .nameTooLong else .other (toString e)
  | other => .other (toString other)

/-- Reads a file as text. -/
def readFile (path : String) : IO (Except ReadError String) := do
  try
    let bytes ← IO.FS.readBinFile path
    return decodeText bytes
  catch e => return .error (readErrorOf e)

end ShaderLang

open ShaderLang in
/-- Prints what the run leaves and ends with its number. -/
def main (arguments : List String) : IO UInt32 := do
  let program ← IO.appPath
  let content ←
    match arguments with
    | [path] => readFile path
    | _ => pure (.error .notFound)
  let outcome := CommandLine.run program.toString arguments fun _ => content
  IO.print outcome.output
  IO.eprint outcome.errors
  return outcome.exitCode.toUInt32
