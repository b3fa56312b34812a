/-
**From source text to a compilation unit.**

Only a character that no token begins with stops the reading of a program.  All else that is wrong
with it is reported in the compilation unit, so that one run finds as much as possible.

Main definitions:

* `ShaderLang.Options` — the name of the file and the length of reports;
* `ShaderLang.CompilationUnit.ofTokens` — reading tokens;
* `ShaderLang.compile` — reading source text.
-/

import ShaderLang.Grammar.Program
import ShaderLang.Token.Scan
import ShaderLang.CompilationUnit

set_option relaxedAutoImplicit false
set_option autoImplicit false

namespace ShaderLang

/-- How a program is read. -/
structure Options where
  /-- The name of the file, as it is shown in front of messages. -/
  fileName : String
  /-- How many alternatives the report of an unexpected token lists at most. -/
  limit : Nat
  deriving DecidableEq, Repr

namespace Options

/-- The options where none are given. -/
def standard : Options := ⟨"shader", 5⟩

end Options

/-- Before the first token. -/
def ParseState.start (tokens : TokenStream) (o : Options) : ParseState :=
  { cursor := .ofStream tokens
    builder := .start (Diagnostics.empty.addFile o.fileName).2
    limit := o.limit }

/-- Reads a program.  A program allows every token, so reading always goes on to the end. -/
def CompilationUnit.ofTokens (tokens : TokenStream) (o : Options) :
    Except Fault CompilationUnit :=
  match Grammar.program (.start tokens o) with
  | .ok root s => .ok (s.builder.finish root)
  | .error (.fault f) _ => .error f
  | .error (.unexpected _ _) s => .ok (s.builder.finish none)

/-- Why a source text gives no compilation unit. -/
inductive Rejection where
  | token (diagnostic : Diagnostic)
  | fault (fault : Fault)

/-- Reads source text. -/
def compile (source : String) (o : Options) : Except Rejection CompilationUnit :=
  match TokenStream.ofSource source 0 with
  | .error d => .error (.token d)
  | .ok tokens =>
      match CompilationUnit.ofTokens tokens o with
      | .error f => .error (.fault f)
      | .ok u => .ok u

end ShaderLang
