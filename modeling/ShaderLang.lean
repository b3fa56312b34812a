import ShaderLang.Arena
import ShaderLang.Binary64
import ShaderLang.Builder
import ShaderLang.Builder.Declaration
import ShaderLang.Builder.Expression
import ShaderLang.Builder.Statement
import ShaderLang.CallGraph
import ShaderLang.CommandLine
import ShaderLang.CommandLine.FileTree
import ShaderLang.CompilationUnit
import ShaderLang.Compile
import ShaderLang.Constant
import ShaderLang.Constant.Arithmetic
import ShaderLang.Constant.Literal
import ShaderLang.Decimal.Notation
import ShaderLang.Decimal.Reading
import ShaderLang.Decimal.Shortest
import ShaderLang.Diagnostic
import ShaderLang.Fault
import ShaderLang.Grammar.Cursor
import ShaderLang.Grammar.Declaration
import ShaderLang.Grammar.Expression
import ShaderLang.Grammar.Parser
import ShaderLang.Grammar.Power
import ShaderLang.Grammar.Program
import ShaderLang.Grammar.Statement
import ShaderLang.Intrinsic
import ShaderLang.LastIndex
import ShaderLang.Main
import ShaderLang.Names
import ShaderLang.Node
import ShaderLang.Operator
import ShaderLang.Position
import ShaderLang.Proofs.Arena.Acyclic
import ShaderLang.Proofs.Arena.Alike
import ShaderLang.Proofs.Arena.Extension
import ShaderLang.Proofs.Arena.Forest
import ShaderLang.Proofs.Arena.Roles
import ShaderLang.Proofs.Arena.Walks
import ShaderLang.Proofs.Builder.Alike
import ShaderLang.Proofs.Builder.Closing
import ShaderLang.Proofs.Builder.Continuation
import ShaderLang.Proofs.Builder.Grafts
import ShaderLang.Proofs.Builder.Growth
import ShaderLang.Proofs.Builder.Moves
import ShaderLang.Proofs.Builder.Operations
import ShaderLang.Proofs.Builder.Sequences
import ShaderLang.Proofs.Builder.Sessions
import ShaderLang.Proofs.Builder.Sizes
import ShaderLang.Proofs.Builder.Steps
import ShaderLang.Proofs.Builder.Turns
import ShaderLang.Proofs.CallGraph.Regrouping
import ShaderLang.Proofs.CompilationUnit.Alike
import ShaderLang.Proofs.CompilationUnit.Arrays
import ShaderLang.Proofs.CompilationUnit.Bodies
import ShaderLang.Proofs.CompilationUnit.Calls
import ShaderLang.Proofs.CompilationUnit.Catalogue
import ShaderLang.Proofs.CompilationUnit.Confinement
import ShaderLang.Proofs.CompilationUnit.Continuation
import ShaderLang.Proofs.CompilationUnit.Descriptions
import ShaderLang.Proofs.CompilationUnit.Lines
import ShaderLang.Proofs.CompilationUnit.Outline
import ShaderLang.Proofs.CompilationUnit.Progress
import ShaderLang.Proofs.CompilationUnit.Reports
import ShaderLang.Proofs.CompilationUnit.Shown
import ShaderLang.Proofs.CompilationUnit.Types
import ShaderLang.Proofs.CompilationUnit.WellFormed
import ShaderLang.Proofs.Constant.Arithmetic
import ShaderLang.Proofs.Constant.Whole
import ShaderLang.Proofs.Grammar.Braces
import ShaderLang.Proofs.Grammar.Candid
import ShaderLang.Proofs.Grammar.Carrying
import ShaderLang.Proofs.Grammar.Composition
import ShaderLang.Proofs.Grammar.Conduct
import ShaderLang.Proofs.Grammar.Confinement
import ShaderLang.Proofs.Grammar.Consuming
import ShaderLang.Proofs.Grammar.Course
import ShaderLang.Proofs.Grammar.Declarations
import ShaderLang.Proofs.Grammar.Expressions
import ShaderLang.Proofs.Grammar.Inner
import ShaderLang.Proofs.Grammar.Landing
import ShaderLang.Proofs.Grammar.Layout
import ShaderLang.Proofs.Grammar.Locality
import ShaderLang.Proofs.Grammar.Lookahead
import ShaderLang.Proofs.Grammar.Meaning
import ShaderLang.Proofs.Grammar.Nesting
import ShaderLang.Proofs.Grammar.Operands
import ShaderLang.Proofs.Grammar.Orderly
import ShaderLang.Proofs.Grammar.Places
import ShaderLang.Proofs.Grammar.Printing
import ShaderLang.Proofs.Grammar.Productions
import ShaderLang.Proofs.Grammar.ProgramLayout
import ShaderLang.Proofs.Grammar.Programs
import ShaderLang.Proofs.Grammar.Reading
import ShaderLang.Proofs.Grammar.Retracing
import ShaderLang.Proofs.Grammar.RoundTrip
import ShaderLang.Proofs.Grammar.Rules
import ShaderLang.Proofs.Grammar.Sequel
import ShaderLang.Proofs.Grammar.Soundness
import ShaderLang.Proofs.Grammar.Spelling
import ShaderLang.Proofs.Grammar.Standing
import ShaderLang.Proofs.Grammar.Statements
import ShaderLang.Proofs.Grammar.Turns
import ShaderLang.Proofs.Grammar.TypeLength
import ShaderLang.Proofs.Grammar.Variables
import ShaderLang.Proofs.Grammar.Words
import ShaderLang.Proofs.Grammar.Writing
import ShaderLang.Proofs.Grammar.WritingBack
import ShaderLang.Proofs.Grammar.Yield
import ShaderLang.Proofs.Names.Interning
import ShaderLang.Proofs.Names.Texts
import ShaderLang.Proofs.Results
import ShaderLang.Proofs.Semantic.Reading
import ShaderLang.Proofs.Static.Admitted
import ShaderLang.Proofs.Static.Agreement
import ShaderLang.Proofs.Static.Integrality
import ShaderLang.Proofs.Static.Kinds
import ShaderLang.Proofs.Structs.Limits
import ShaderLang.Proofs.Structs.Measure
import ShaderLang.Proofs.Structs.Numbering
import ShaderLang.Proofs.Structs.Packing
import ShaderLang.Proofs.Structs.Registration
import ShaderLang.Proofs.Structs.Registry
import ShaderLang.Proofs.Structs.Selections
import ShaderLang.Proofs.Structs.Size
import ShaderLang.Proofs.Text.Digits
import ShaderLang.Proofs.Token.Excerpts
import ShaderLang.Proofs.Token.Factoring
import ShaderLang.Proofs.Token.Fitting
import ShaderLang.Proofs.Token.Lines
import ShaderLang.Proofs.Token.Literals
import ShaderLang.Proofs.Token.Longest
import ShaderLang.Proofs.Token.Numbers
import ShaderLang.Proofs.Token.Pieces
import ShaderLang.Proofs.Token.Quotation
import ShaderLang.Proofs.Token.Respacing
import ShaderLang.Proofs.Token.Written
import ShaderLang.Proofs.Types.Keywords
import ShaderLang.Proofs.Types.Packing
import ShaderLang.Proofs.Types.Pairing
import ShaderLang.Qualifiers
import ShaderLang.Semantic
import ShaderLang.Static.Fold
import ShaderLang.Static.Typing
import ShaderLang.Structs
import ShaderLang.Structs.Layout
import ShaderLang.Text.Blank
import ShaderLang.Text.Digit
import ShaderLang.Text.Escape
import ShaderLang.Text.Front
import ShaderLang.Text.Line
import ShaderLang.Text.Printable
import ShaderLang.Text.Quoted
import ShaderLang.Token
import ShaderLang.Token.Lexeme
import ShaderLang.Token.Scan
import ShaderLang.Types.Base
import ShaderLang.Types.DataType
import ShaderLang.Types.Keyword
import ShaderLang.Types.Pairing
