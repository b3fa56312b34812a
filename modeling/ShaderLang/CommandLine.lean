/-
**The command line.**

The command takes the path of one source file.  It prints the outline of the program and its calls,
and everything that was reported on the error output.  It ends with zero if nothing was reported,
with one if something was, and with two if it was called wrongly or the file cannot be read.

Main definitions:

* `ShaderLang.Outcome` — what a run of the command leaves;
* `ShaderLang.CommandLine.rejected` — how a character is shown that no token begins with;
* `ShaderLang.CommandLine.run` — the command.
-/

import ShaderLang.CommandLine.FileTree
import ShaderLang.Compile
import ShaderLang.Text.Line

set_option relaxedAutoImplicit false
set_option autoImplicit false

namespace ShaderLang

/-- What a run of the command leaves. -/
structure Outcome where
  exitCode : UInt8
  output : String
  errors : String
  deriving DecidableEq, Repr

namespace CommandLine

open Text

/-- Lines, each with its end. -/
def unlines (lines : List String) : String := String.join (lines.map (· ++ "\n"))

/-- The run of a command that was called wrongly. -/
def usage (program : String) : Outcome := ⟨2, "", unlines ["Usage: " ++ program ++ " <shader file>"]⟩

/-- The run of a command that cannot read the file. -/
def unreadable (path : String) (e : ReadError) : Outcome :=
  ⟨2, "", unlines ["Failed to read " ++ path ++ ": " ++ e.message]⟩

/-- The line of the source text with a diagnostic, under its name. -/
def excerpt (path source : String) (d : Diagnostic) : List String :=
  let number := toString d.position.line
  let bar := String.ofList (List.replicate (number.length + 1) ' ') ++ "|"
  let headline :=
    match d.problem.tip with
    | none => "Error: " ++ d.problem.name
    | some tip => "Error: " ++ d.problem.name ++ " (" ++ tip ++ ")"
  let text := trim ((lineText source d.position.line).getD "")
  [headline, "-> " ++ path, bar, number ++ " | " ++ text, bar]

/-- The run on a source text with a character that no token begins with. -/
def rejected (path source : String) (d : Diagnostic) : Outcome :=
  ⟨1, "", unlines (excerpt path source d)⟩

/-- The run that meets a fault. -/
def faulty (f : Fault) : Outcome := ⟨101, "", unlines [f.message]⟩

/-- The lines for calls. -/
def callLines (g : CallGraph) : List String :=
  g.pairs.map fun (caller, callee) => "call " ++ caller ++ " -> " ++ callee

/-- The run on a program. -/
def accepted (u : CompilationUnit) : Outcome :=
  match u.outline with
  | .error f => faulty f
  | .ok outline =>
      ⟨if u.diagnostics.hasReports then 1 else 0, outline ++ unlines (callLines u.calls),
        unlines u.diagnostics.messages⟩

/-- The run on a source text. -/
def runOn (path source : String) : Outcome :=
  match compile source { Options.standard with fileName := fileName path } with
  | .error (.token d) => rejected path source d
  | .error (.fault f) => faulty f
  | .ok u => accepted u

/-- The run on what reading the file gave. -/
def answer (path : String) (content : Except ReadError String) : Outcome :=
  match content with
  | .error e => unreadable path e
  | .ok source => runOn path source

/-- The command: the name it was called by, its arguments, and how to read files. -/
def run (program : String) (arguments : List String)
    (read : String → Except ReadError String) : Outcome :=
  match arguments with
  | [path] => answer path (read path)
  | _ => usage program

end CommandLine

end ShaderLang
