import StepScript.Span

/-!
# Tokens

The words and signs of a program.

- `TokenKind` tells them apart, `keyword?` is the table of words with a meaning of their own;
- `Token` is a kind with its spelling, its value and its place.
-/

namespace StepScript

/-- The kinds of tokens. -/
inductive TokenKind where
  | leftParen
  | rightParen
  | leftBrace
  | rightBrace
  | leftBracket
  | rightBracket
  | comma
  | dot
  | minus
  | plus
  | semicolon
  | slash
  | star
  | bang
  | bangEqual
  | equal
  | equalEqual
  | greater
  | greaterEqual
  | less
  | lessEqual
  | identifier
  | string
  | number
  | and
  | else
  | false
  | for
  | function
  | if
  | null
  | or
  | return
  | true
  | while
  /-- The word that writes a value. -/
  | print
  /-- The word that writes a value and ends the line. -/
  | printLine
  /-- The words that read a line. -/
  | input
  /-- The end of the text. -/
  | eof
deriving DecidableEq, Inhabited

/-- The words with a meaning of their own. -/
def keywords : List (String × TokenKind) :=
  [("and", .and), ("else", .else), ("false", .false), ("for", .for), ("function", .function),
   ("if", .if), ("null", .null), ("or", .or), ("return", .return), ("true", .true),
   ("while", .while), ("print", .print), ("etb3", .printLine), ("da5l", .input), ("d5l", .input),
   ("scan", .input)]

/-- The kind of a word: a keyword only when the whole word is one. -/
def wordKind (word : String) : TokenKind := (keywords.lookup word).getD .identifier

/-- The value that a number or string token carries. -/
inductive Payload where
  | number (value : Float)
  | text (value : String)

/-- A token: its kind, how it is spelled, the value it carries and where it stands. -/
structure Token where
  kind : TokenKind
  lexeme : String
  payload : Option Payload
  span : Span
deriving Inhabited

namespace Token

/-- The token that ends a text. -/
def eof (span : Span) : Token := ⟨.eof, "", none, span⟩

/-- Whether the token ends the text. -/
def isEof (t : Token) : Bool := t.kind == .eof

end Token

end StepScript
