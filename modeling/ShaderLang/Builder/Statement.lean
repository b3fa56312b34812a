/-
**Building statements.**

Main definitions:

* `ShaderLang.Build.compound`, … — one step for each kind of statement.
-/

import ShaderLang.Builder

set_option relaxedAutoImplicit false
set_option autoImplicit false

namespace ShaderLang.Build

/-- Statements between braces. -/
def compound (statements : Option NodeId) : Build NodeId := add (.compound statements)

/-- An expression as a statement; without one, the empty statement. -/
def expression (value : Option NodeId) : Build NodeId := add (.expression value)

/-- A choice between statements. -/
def conditional (condition yes : NodeId) (no : Option NodeId) : Build NodeId :=
  add (.conditional condition yes no)

/-- A loop that tests before its body. -/
def whileLoop (condition body : NodeId) : Build NodeId := add (.whileLoop condition body)

/-- A loop that tests after its body. -/
def doLoop (body condition : NodeId) : Build NodeId := add (.doLoop body condition)

/-- A counting loop. -/
def forLoop (first condition next : Option NodeId) (body : NodeId) : Build NodeId :=
  add (.forLoop first condition next body)

/-- A statement that leaves the order of execution. -/
def jump (j : Jump) : Build NodeId := add (.jump j)

/-- The end of a function, with or without a value. -/
def result (value : Option NodeId) : Build NodeId := add (.result value)

end ShaderLang.Build
