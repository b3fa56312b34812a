/-
**Diagnostics.**

A problem is a cause with what is needed to describe it; a diagnostic is a problem at a position.
Diagnostics are kept in the order in which they were reported, together with the names of the source
files that positions refer to.

Main definitions:

* `ShaderLang.Problem` — the causes;
* `ShaderLang.Problem.name`, `ShaderLang.Problem.message`, `ShaderLang.Problem.tip` — its name, its
  description and advice;
* `ShaderLang.Diagnostic`, `ShaderLang.Diagnostics` — what was reported;
* `ShaderLang.Diagnostics.render` — a diagnostic as a line of output.
-/

import ShaderLang.Position
import ShaderLang.Text.Quoted

set_option relaxedAutoImplicit false
set_option autoImplicit false

namespace ShaderLang

open Text

/-- What can be wrong with a program. -/
inductive Problem where
  | unrecognisedToken (token : String)
  | unexpectedToken (token : String) (expected : List String)
  | malformedNumber (token : String)
  | nonIntegerIndex
  | nonIntegerSize
  | sizeOutOfRange (value : String)
  | nonConstantDimension
  | dimensionOutOfRange (value : Int)
  | unknownType (type : String)
  | unknownIntrinsic (name : String)
  | unknownSemantic (name : String)
  | outOfMemory
  deriving DecidableEq, Repr

namespace Problem

/-- The name of a problem. -/
def name : Problem → String
  | unrecognisedToken _ => "UnrecognisedToken"
  | unexpectedToken _ _ => "UnexpectedToken"
  | malformedNumber _ => "NumberParseError"
  | nonIntegerIndex => "NonIntegerIndex"
  | nonIntegerSize => "NonIntegerArraySize"
  | sizeOutOfRange _ => "ArraySizeOutOfRange"
  | nonConstantDimension => "NonConstantDimension"
  | dimensionOutOfRange _ => "DimensionOutOfRange"
  | unknownType _ => "UnknownType"
  | unknownIntrinsic _ => "UnknownIntrinsic"
  | unknownSemantic _ => "UnknownSemantic"
  | outOfMemory => "AllocationFailure"

/-- A problem in words. -/
def message : Problem → String
  | unrecognisedToken token => "unrecognised token: " ++ quoted token
  | unexpectedToken token expected =>
      "unexpected token `" ++ token ++ "`, expecting \x7b" ++ ", ".intercalate expected ++ "\x7d"
  | malformedNumber token => "error parsing number: " ++ quoted token
  | nonIntegerIndex => "array index expression is not an integer"
  | nonIntegerSize => "array size expression is not an integer"
  | sizeOutOfRange value => "array size " ++ value ++ " is negative or too large"
  | nonConstantDimension => "vector or matrix dimension is not a constant integer"
  | dimensionOutOfRange value =>
      "vector or matrix dimension " ++ toString value ++ " is outside the range 2 to 4"
  | unknownType type => "unknown type " ++ type ++ " found"
  | unknownIntrinsic name => "unknown intrinsic " ++ quoted name
  | unknownSemantic name => "unknown semantic " ++ quoted name
  | outOfMemory => "out of memory while building the syntax tree"

/-- What to do about a problem, where there is something to say. -/
def tip : Problem → Option String
  | unrecognisedToken _ => none
  | unexpectedToken token expected =>
      if expected.isEmpty then none
      else
        some ("Unexpected token: `" ++ token ++ "`, expected one of " ++ ", ".intercalate expected)
  | malformedNumber token =>
      some ("Invalid number: `" ++ token ++ "`, is it above the integer limit?")
  | nonIntegerIndex => some "Cast the index to `int` or `uint`"
  | nonIntegerSize => some "Array sizes must be integer constant expressions"
  | sizeOutOfRange _ => some "Array sizes must be between 0 and 4294967295"
  | nonConstantDimension => some "Vector and matrix dimensions must be integer literals"
  | dimensionOutOfRange _ => some "Vector and matrix dimensions must be between 2 and 4"
  | unknownType type => some ("Unknown type `" ++ type ++ "` found")
  | unknownIntrinsic name => some ("`" ++ name ++ "` is not a recognised intrinsic")
  | unknownSemantic name => some ("`" ++ name ++ "` is not a recognised semantic")
  | outOfMemory => none

end Problem

/-- A problem and where it was found. -/
structure Diagnostic where
  problem : Problem
  position : Position
  deriving DecidableEq, Repr

/-- What was reported, and the names of the files that positions refer to. -/
structure Diagnostics where
  files : Array String
  reports : Array Diagnostic
  deriving DecidableEq

namespace Diagnostics

/-- No files and nothing reported. -/
def empty : Diagnostics := ⟨#[], #[]⟩

/-- One more file, and its number. -/
def addFile (d : Diagnostics) (name : String) : UInt16 × Diagnostics :=
  (UInt16.ofNat d.files.size, { d with files := d.files.push name })

/-- The name of a file. -/
def fileName (d : Diagnostics) (file : UInt16) : Option String := d.files[file.toNat]?

/-- Reports a problem. -/
def report (d : Diagnostics) (problem : Problem) (position : Position) : Diagnostics :=
  { d with reports := d.reports.push ⟨problem, position⟩ }

/-- Something was reported. -/
def hasReports (d : Diagnostics) : Bool := !d.reports.isEmpty

/-- A diagnostic as a line of output, with the file's name if it is known. -/
def render (d : Diagnostics) (r : Diagnostic) : String :=
  (d.fileName r.position.file).getD ""
    ++ "(" ++ toString r.position.line ++ "): error: " ++ r.problem.message

/-- Everything reported, as lines of output. -/
def messages (d : Diagnostics) : List String := d.reports.toList.map d.render

end Diagnostics

end ShaderLang
