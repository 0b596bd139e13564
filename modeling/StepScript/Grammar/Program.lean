import StepScript.Grammar.Statement
import StepScript.Token.Scan

/-!
# Reading programs

A program is a sequence of declarations. It can be read up to the first mistake (`parse`), or past all of
them (`parseRecovering`): after a mistake, tokens are skipped to just behind a semicolon or just before a
word that starts a statement. Both take one declaration after the other in the same way.

- `compile` reads a text up to the first mistake, `check` lists all of its mistakes.
-/

namespace StepScript.Grammar

/-- A bound on the depth of nested reading steps for so many tokens. -/
def bound (tokens : Nat) : Nat := 24 * (tokens + 1)

/-- The words before which reading starts again after a mistake. -/
def startsStatement : TokenKind → Bool
  | .function | .if | .while | .for | .return | .print | .printLine => true
  | _ => false

/-- Skips tokens to just behind a semicolon or just before a word that starts a statement. -/
def skip (latest : Option Token) : List Token → Cursor
  | [] => ⟨latest, []⟩
  | t :: ts =>
    if latest.any (·.kind == .semicolon) || startsStatement t.kind then ⟨latest, t :: ts⟩
    else skip (some t) ts

/-- Where reading goes on after a mistake: at least one token is skipped. -/
def synchronize (c : Cursor) : Cursor :=
  let next := c.advance
  skip next.latest next.ahead

/-- The outcome of reading one declaration, with the place after it. -/
def nextDeclaration (n : Nat) (c : Cursor) : Except Diagnostic Stmt × Cursor :=
  match declaration n c with
  | .done s c => (.ok s, c)
  | .failed problem c => (.error problem, c)
  | .exhausted => (.error (c.diagnose (.expression .nothing)), c)

/-- Declarations up to the end or the first mistake; `done` holds those before, the latest first. -/
def declarations (n : Nat) (done : List Stmt) : Nat → Cursor → Except Diagnostic Program
  | 0, _ => .ok done.reverse
  | turns + 1, c =>
    if c.atEnd then .ok done.reverse
    else
      match nextDeclaration n c with
      | (.ok s, c) => declarations n (s :: done) turns c
      | (.error problem, _) => .error problem

/-- The program that the tokens spell, or the first mistake. -/
def parse (tokens : List Token) : Except Diagnostic Program :=
  let c := Cursor.ofTokens tokens
  declarations (bound c.ahead.length) [] (c.ahead.length + 1) c

/-- Declarations up to the end, and the mistakes between them, the latest first. -/
def declarationsRecovering (n : Nat) (done : List Stmt) (problems : List Diagnostic) :
    Nat → Cursor → Program × List Diagnostic
  | 0, _ => (done.reverse, problems.reverse)
  | turns + 1, c =>
    if c.atEnd then (done.reverse, problems.reverse)
    else
      match nextDeclaration n c with
      | (.ok s, c) => declarationsRecovering n (s :: done) problems turns c
      | (.error problem, c) => declarationsRecovering n done (problem :: problems) turns (synchronize c)

/-- The declarations that the tokens spell and all mistakes between them. -/
def parseRecovering (tokens : List Token) : Program × List Diagnostic :=
  let c := Cursor.ofTokens tokens
  declarationsRecovering (bound c.ahead.length) [] [] (c.ahead.length + 1) c

end StepScript.Grammar

namespace StepScript

/-- The program that a text spells, or its first mistake. -/
def compile (source : String) : Except Diagnostic Program := scan source >>= Grammar.parse

/-- What can be kept of a text, and all of its mistakes. A text that does not split into tokens has that
one mistake. -/
def survey (source : String) : Program × List Diagnostic :=
  match scan source with
  | .ok tokens => Grammar.parseRecovering tokens
  | .error problem => ([], [problem])

/-- All mistakes of a text. -/
def check (source : String) : List Diagnostic := (survey source).2

end StepScript
