/-
**Tokens.**

A token is a word, a number, a string literal or a mark of punctuation, with its text and position.
A program is a sequence of tokens with an end; the end is a token too, of a kind of its own, but it
stands behind the sequence and is never part of it.

Main definitions:

* `ShaderLang.Mark`, `ShaderLang.Keyword` — the fixed spellings;
* `ShaderLang.TokenKind` — kinds of tokens;
* `ShaderLang.TokenKind.describe` — how a kind is named in a message;
* `ShaderLang.Token`, `ShaderLang.TokenStream` — tokens and programs;
* `ShaderLang.Token.word`, `ShaderLang.TokenStream.words` — the same without positions.
-/

import ShaderLang.Intrinsic
import ShaderLang.Position
import ShaderLang.Qualifiers
import ShaderLang.Types.Keyword

set_option relaxedAutoImplicit false
set_option autoImplicit false

namespace ShaderLang

/-- Operators and punctuation. -/
inductive Mark where
  | openBracket
  | closeBracket
  | openCurly
  | closeCurly
  | openParen
  | closeParen
  | assignment
  | equals
  | not
  | notEquals
  | tilde
  | less
  | lessEquals
  | greater
  | greaterEquals
  | or
  | and
  | pipe
  | ampersand
  | caret
  | shiftLeft
  | shiftRight
  | dot
  | semicolon
  | colon
  | question
  | comma
  | plusPlus
  | minusMinus
  | plusEquals
  | minusEquals
  | starEquals
  | slashEquals
  | percentEquals
  | shiftLeftEquals
  | shiftRightEquals
  | ampersandEquals
  | pipeEquals
  | caretEquals
  | plus
  | dash
  | slash
  | star
  | percent
  deriving DecidableEq, Repr

namespace Mark

/-- All marks, in the order in which they are tried: a mark stands before those that it begins
with. -/
def all : List Mark :=
  [.openBracket, .closeBracket, .openCurly, .closeCurly, .openParen, .closeParen,
    .shiftLeftEquals, .shiftRightEquals, .shiftLeft, .shiftRight, .equals, .notEquals, .not,
    .assignment, .lessEquals, .less, .greaterEquals, .greater, .or, .and, .pipeEquals,
    .ampersandEquals, .caretEquals, .pipe, .ampersand, .caret, .tilde, .dot, .semicolon, .colon,
    .question, .comma, .plusPlus, .minusMinus, .plusEquals, .minusEquals, .starEquals,
    .slashEquals, .percentEquals, .plus, .dash, .slash, .star, .percent]

/-- How a mark is written. -/
def spelling : Mark → String
  | .openBracket => "["
  | .closeBracket => "]"
  | .openCurly => "\x7b"
  | .closeCurly => "\x7d"
  | .openParen => "("
  | .closeParen => ")"
  | .assignment => "="
  | .equals => "=="
  | .not => "!"
  | .notEquals => "!="
  | .tilde => "~"
  | .less => "<"
  | .lessEquals => "<="
  | .greater => ">"
  | .greaterEquals => ">="
  | .or => "||"
  | .and => "&&"
  | .pipe => "|"
  | .ampersand => "&"
  | .caret => "^"
  | .shiftLeft => "<<"
  | .shiftRight => ">>"
  | .dot => "."
  | .semicolon => ";"
  | .colon => ":"
  | .question => "?"
  | .comma => ","
  | .plusPlus => "++"
  | .minusMinus => "--"
  | .plusEquals => "+="
  | .minusEquals => "-="
  | .starEquals => "*="
  | .slashEquals => "/="
  | .percentEquals => "%="
  | .shiftLeftEquals => "<<="
  | .shiftRightEquals => ">>="
  | .ampersandEquals => "&="
  | .pipeEquals => "|="
  | .caretEquals => "^="
  | .plus => "+"
  | .dash => "-"
  | .slash => "/"
  | .star => "*"
  | .percent => "%"

/-- The name of a mark. -/
def name : Mark → String
  | .openBracket => "OpenBracket"
  | .closeBracket => "CloseBracket"
  | .openCurly => "OpenCurly"
  | .closeCurly => "CloseCurly"
  | .openParen => "OpenParen"
  | .closeParen => "CloseParen"
  | .assignment => "Assignment"
  | .equals => "Equals"
  | .not => "Not"
  | .notEquals => "NotEquals"
  | .tilde => "Tilde"
  | .less => "Less"
  | .lessEquals => "LessEquals"
  | .greater => "Greater"
  | .greaterEquals => "GreaterEquals"
  | .or => "Or"
  | .and => "And"
  | .pipe => "Pipe"
  | .ampersand => "Ampersand"
  | .caret => "Caret"
  | .shiftLeft => "ShiftLeft"
  | .shiftRight => "ShiftRight"
  | .dot => "Dot"
  | .semicolon => "Semicolon"
  | .colon => "Colon"
  | .question => "Question"
  | .comma => "Comma"
  | .plusPlus => "PlusPlus"
  | .minusMinus => "MinusMinus"
  | .plusEquals => "PlusEquals"
  | .minusEquals => "MinusEquals"
  | .starEquals => "StarEquals"
  | .slashEquals => "SlashEquals"
  | .percentEquals => "PercentEquals"
  | .shiftLeftEquals => "ShiftLeftEquals"
  | .shiftRightEquals => "ShiftRightEquals"
  | .ampersandEquals => "AmpersandEquals"
  | .pipeEquals => "PipeEquals"
  | .caretEquals => "CaretEquals"
  | .plus => "Plus"
  | .dash => "Dash"
  | .slash => "Slash"
  | .star => "Star"
  | .percent => "Percent"

theorem mem_all (m : Mark) : m ∈ all := by
  cases m <;> decide

end Mark

/-- Words that are reserved for the grammar. -/
inductive Keyword where
  | structWord
  | ifWord
  | elseWord
  | whileWord
  | doWord
  | forWord
  | breakWord
  | continueWord
  | discardWord
  | returnWord
  | trueWord
  | falseWord
  | vectorWord
  | matrixWord
  deriving DecidableEq, Repr

namespace Keyword

/-- All reserved words. -/
def all : List Keyword :=
  [.structWord, .ifWord, .elseWord, .whileWord, .doWord, .forWord, .breakWord, .continueWord,
    .discardWord, .returnWord, .trueWord, .falseWord, .vectorWord, .matrixWord]

/-- How a reserved word is written. -/
def spelling : Keyword → String
  | .structWord => "struct"
  | .ifWord => "if"
  | .elseWord => "else"
  | .whileWord => "while"
  | .doWord => "do"
  | .forWord => "for"
  | .breakWord => "break"
  | .continueWord => "continue"
  | .discardWord => "discard"
  | .returnWord => "return"
  | .trueWord => "true"
  | .falseWord => "false"
  | .vectorWord => "vector"
  | .matrixWord => "matrix"

/-- The name of a reserved word. -/
def name : Keyword → String
  | .structWord => "Struct"
  | .ifWord => "If"
  | .elseWord => "Else"
  | .whileWord => "While"
  | .doWord => "Do"
  | .forWord => "For"
  | .breakWord => "Break"
  | .continueWord => "Continue"
  | .discardWord => "Discard"
  | .returnWord => "Return"
  | .trueWord => "True"
  | .falseWord => "False"
  | .vectorWord => "Vector"
  | .matrixWord => "Matrix"

/-- The reserved word with a spelling. -/
def ofSpelling (text : String) : Option Keyword := all.find? fun k => k.spelling == text

theorem mem_all (k : Keyword) : k ∈ all := by
  cases k <;> decide

theorem spelling_of_ofSpelling {text : String} {k : Keyword} (h : ofSpelling text = some k) :
    k.spelling = text := by
  simpa using List.find?_some h

end Keyword

/-- The kinds of tokens. -/
inductive TokenKind where
  | endOfFile
  | int
  | float
  | string
  | name
  | typeName
  | intrinsic
  | qualifier
  | mark (mark : Mark)
  | keyword (keyword : Keyword)
  deriving DecidableEq, Repr

namespace TokenKind

/-- All kinds of tokens. -/
def all : List TokenKind :=
  [endOfFile, int, float, string, name, typeName, intrinsic, qualifier]
    ++ Mark.all.map mark ++ Keyword.all.map keyword

/-- The name of a kind. -/
def label : TokenKind → String
  | endOfFile => "EOF"
  | int => "IntLiteral"
  | float => "FloatLiteral"
  | string => "String"
  | name => "Identifier"
  | typeName => "TypeName"
  | intrinsic => "Intrinsic"
  | qualifier => "Qualifier"
  | mark m => m.name
  | keyword k => k.name

/-- The kind with a name. -/
def ofLabel (label : String) : Option TokenKind := all.find? fun k => k.label == label

/-- How a kind is named in a message. -/
def describe : TokenKind → String
  | endOfFile => "end of file"
  | int => "integer literal"
  | float => "float literal"
  | string => "string literal"
  | name => "identifier"
  | typeName => "type name"
  | intrinsic => "intrinsic"
  | qualifier => "qualifier"
  | mark m => "`" ++ m.spelling ++ "`"
  | keyword k => "`" ++ k.spelling ++ "`"

/-- The kind of a word: reserved words and qualifiers first, then the names of types and of
intrinsic functions. -/
def ofWord (text : String) : TokenKind :=
  match Keyword.ofSpelling text with
  | some k => .keyword k
  | none =>
      if (Qualifiers.ofKeyword text).isSome then .qualifier
      else if (DataType.ofKeyword text).isSome then .typeName
      else if (Intrinsic.ofName text).isSome then .intrinsic
      else .name

end TokenKind

/-- A piece of the source text. -/
structure Token where
  kind : TokenKind
  text : String
  position : Position
  deriving DecidableEq, Repr

namespace Token

/-- The token that stands for the end. -/
def endOfFile (position : Position) : Token := ⟨.endOfFile, "EOF", position⟩

/-- The token's kind is one of those listed. -/
def isOneOf (t : Token) (kinds : List TokenKind) : Bool := kinds.contains t.kind

/-- A token without its position. -/
def word (t : Token) : TokenKind × String := (t.kind, t.text)

theorem kind_eq_of_word {t t' : Token} (h : t.word = t'.word) : t.kind = t'.kind :=
  congrArg Prod.fst h

theorem text_eq_of_word {t t' : Token} (h : t.word = t'.word) : t.text = t'.text :=
  congrArg Prod.snd h

/-- A token for the reader of a trace. -/
def render (t : Token) : String :=
  "Token \x7b\nkind: " ++ t.kind.label ++ ",\nvalue: " ++ t.text ++ "\x7d"

end Token

/-- Tokens and the position of the end behind them. -/
structure TokenStream where
  tokens : List Token
  stop : Position
  deriving DecidableEq, Repr

namespace TokenStream

/-- The tokens with the end as the last one. -/
def toList (s : TokenStream) : List Token := s.tokens ++ [Token.endOfFile s.stop]

/-- The words of a program: its tokens without their positions. -/
def words (s : TokenStream) : List (TokenKind × String) := s.tokens.map Token.word

/-- One more token in front. -/
def cons (t : Token) (s : TokenStream) : TokenStream := { s with tokens := t :: s.tokens }

@[simp] theorem words_cons (t : Token) (s : TokenStream) : (s.cons t).words = t.word :: s.words := rfl

end TokenStream

end ShaderLang
