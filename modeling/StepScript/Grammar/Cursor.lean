import StepScript.Diagnostic
import StepScript.Token

/-!
# Reading a list of tokens

A reader takes tokens from the front of a list, one at a time and with one token of lookahead, and comes
back with a tree or a diagnostic. In both cases it says where it stands, so that reading can go on after a
mistake.

- `Cursor` is the place in the list: the latest token taken and the tokens ahead;
- `Reader` is a reading step, with `accept` and `expect` as its smallest ones.
-/

namespace StepScript

/-- A place in a list of tokens. The token that ends the text is not among those ahead; it stands for the latest
one before any is taken. -/
structure Cursor where
  latest : Option Token
  ahead : List Token
deriving Inhabited

/-- The token that ends a list of tokens: the first one that ends the text. If there is none, it is made up, just
behind the last token. -/
def closingToken (tokens : List Token) : Token :=
  match tokens.find? (·.isEof) with
  | some t => t
  | none =>
    match tokens.getLast? with
    | some t => .eof ⟨t.span.stop, t.span.stop, t.span.line⟩
    | none => .eof ⟨0, 0, 1⟩

namespace Cursor

/-- The start of a list of tokens, up to the first that ends the text. -/
def ofTokens (tokens : List Token) : Cursor :=
  ⟨some (closingToken tokens), tokens.takeWhile fun t => !t.isEof⟩

/-- Whether no token is left. -/
def atEnd (c : Cursor) : Bool := c.ahead.isEmpty

/-- Whether the next token is of the given kind. -/
def sees (c : Cursor) (kind : TokenKind) : Bool :=
  match c.ahead with
  | t :: _ => t.kind == kind
  | [] => false

/-- The place after one more token; the end stays where it is. -/
def advance (c : Cursor) : Cursor :=
  match c.ahead with
  | t :: ts => ⟨some t, ts⟩
  | [] => c

/-- A fault met at the next token, or just past the latest one if none is left. If none was taken either, it is
met at the token that ends the text. -/
def diagnose (c : Cursor) (fault : GrammarFault) : Diagnostic :=
  match c.ahead with
  | t :: _ => .grammar t.span (.lexeme t.lexeme) fault
  | [] =>
    match c.latest with
    | some t => .grammar (if t.isEof then t.span else .single t.span.stop t.span.line) .finish fault
    | none => .grammar ⟨0, 0, 1⟩ .finish fault

end Cursor

/-- What a reading step comes back with. -/
inductive Reading (α : Type) where
  /-- Something was read. -/
  | done (value : α) (place : Cursor)
  /-- The tokens do not fit. -/
  | failed (problem : Diagnostic) (place : Cursor)
  /-- The bound on nested steps was too small for the tokens. -/
  | exhausted
deriving Inhabited

/-- A reading step. -/
def Reader (α : Type) := Cursor → Reading α

namespace Reader

protected def pure {α : Type} (a : α) : Reader α := fun c => .done a c

protected def bind {α β : Type} (r : Reader α) (f : α → Reader β) : Reader β := fun c =>
  match r c with
  | .done a c => f a c
  | .failed problem c => .failed problem c
  | .exhausted => .exhausted

instance : Monad Reader where
  pure := Reader.pure
  bind := Reader.bind

/-- No step: the bound is used up. -/
def exhausted {α : Type} : Reader α := fun _ => .exhausted

/-- A fault at the next token. -/
def fault {α : Type} (f : GrammarFault) : Reader α := fun c => .failed (c.diagnose f) c

/-- A fault at a token that was taken before. -/
def faultAt {α : Type} (t : Token) (f : GrammarFault) : Reader α := fun c =>
  .failed (.grammar t.span (.lexeme t.lexeme) f) c

/-- Whether the next token is of the given kind. -/
def sees (kind : TokenKind) : Reader Bool := fun c => .done (c.sees kind) c

/-- Whether no token is left. -/
def atEnd : Reader Bool := fun c => .done c.atEnd c

/-- Takes the next token if the classifier gives it a meaning. -/
def acceptAs {α : Type} (classify : TokenKind → Option α) : Reader (Option (α × Token)) := fun c =>
  match c.ahead with
  | t :: ts =>
    match classify t.kind with
    | some a => .done (some (a, t)) ⟨some t, ts⟩
    | none => .done none c
  | [] => .done none c

/-- Takes the next token if it is of the given kind. -/
def accept (kind : TokenKind) : Reader (Option Token) := fun c =>
  match c.ahead with
  | t :: ts => if t.kind = kind then .done (some t) ⟨some t, ts⟩ else .done none c
  | [] => .done none c

/-- Takes the next token, which has to be of the given kind. -/
def expect (kind : TokenKind) (f : GrammarFault) : Reader Token := fun c =>
  match c.ahead with
  | t :: ts => if t.kind = kind then .done t ⟨some t, ts⟩ else .failed (c.diagnose f) c
  | [] => .failed (c.diagnose f) c

end Reader

end StepScript
