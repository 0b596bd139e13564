import StepScript.Grammar.Expression

/-!
# Reading statements

A declaration is a function or a statement. The bodies of `if`, `while` and `for` are statements, so
functions are declared only at the top level and in blocks.

A `for` loop is read as the `while` loop it stands for: the step is put after the body in a block, the
loop after the initializer in another, and a missing condition is always true.
-/

namespace StepScript.Grammar

open Reader

/-- An expression as a statement; the assignment of a variable is a statement of its own. -/
def statementOf (e : Expr) (span : Span) : Stmt :=
  match e with
  | .assign name value _ => .assign name value span
  | e => .expr e span

/-- The loop that a `for` stands for. -/
def forLoop (keyword : Span) (start : Option Stmt) (condition step : Option Expr) (body : Stmt) : Stmt :=
  let span := keyword.through body.span
  let turn := match step with
    | some e => .block [body, statementOf e e.span] span
    | none => body
  let loop := .loop (condition.getD (.literal (.boolean true) keyword)) turn span
  match start with
  | some s => .block [s, loop] span
  | none => loop

/-- An expression unless the next token closes the place for it. -/
def optionalUntil (n : Nat) (close : TokenKind) : Reader (Option Expr) := do
  if ← sees close then pure none else some <$> expression n

/-- An expression and the semicolon that ends it. -/
def expressionStatement (n : Nat) : Reader Stmt := do
  let e ← expression n
  let close ← expect .semicolon .expressionEnd
  pure (statementOf e (e.span.through close.span))

/-- At least one parameter, with commas between. There is room for so many. -/
def parameters : Nat → Reader (List String)
  | 0 => fault .tooManyParameters
  | room + 1 => do
    let name ← expect .identifier .parameterName
    match ← accept .comma with
    | none => pure [name.lexeme]
    | some _ =>
      let names ← parameters room
      pure (name.lexeme :: names)

/-- The statements that start with a word or a brace. -/
inductive Lead where
  | ifLead
  | whileLead
  | forLead
  | returnLead
  | printLead (newline : Bool)
  | inputLead
  | blockLead
deriving DecidableEq

def lead? : TokenKind → Option Lead
  | .if => some .ifLead
  | .while => some .whileLead
  | .for => some .forLead
  | .return => some .returnLead
  | .print => some (.printLead false)
  | .printLine => some (.printLead true)
  | .input => some .inputLead
  | .leftBrace => some .blockLead
  | _ => none

/-- The rest of a `return` after its keyword. -/
def returnStatement (n : Nat) (keyword : Token) : Reader Stmt := do
  let value ← optionalUntil n .semicolon
  let close ← expect .semicolon .returnEnd
  pure (.leave value (keyword.span.through close.span))

/-- The rest of an output statement after its keyword. -/
def printStatement (n : Nat) (newline : Bool) (keyword : Token) : Reader Stmt := do
  let _ ← expect .leftParen (.printOpen keyword.lexeme)
  let e ← expression n
  let _ ← expect .rightParen .printClose
  let close ← expect .semicolon .printEnd
  pure (.print e newline (keyword.span.through close.span))

/-- The rest of an input statement after its keyword. -/
def inputStatement (n : Nat) (keyword : Token) : Reader Stmt := do
  let _ ← expect .leftParen (.inputOpen keyword.lexeme)
  let prompt ← optionalUntil n .rightParen
  let _ ← expect .rightParen (.inputClose keyword.lexeme)
  let close ← expect .semicolon (.inputEnd keyword.lexeme)
  pure (.input keyword.lexeme prompt (keyword.span.through close.span))

/-- The first part of a `for`: nothing but a semicolon, or an expression statement. -/
def forStart (n : Nat) : Reader (Option Stmt) := do
  match ← accept .semicolon with
  | some _ => pure none
  | none => some <$> expressionStatement n

mutual

/-- A function or a statement. -/
def declaration : Nat → Reader Stmt
  | 0 => exhausted
  | n + 1 => do
    match ← accept .function with
    | some keyword => functionDeclaration n keyword
    | none => statement n

/-- The rest of a function after its keyword. -/
def functionDeclaration : Nat → Token → Reader Stmt
  | 0, _ => exhausted
  | n + 1, keyword => do
    let name ← expect .identifier .functionName
    let _ ← expect .leftParen .functionOpen
    let params ← if ← sees .rightParen then pure [] else parameters maxArguments
    let _ ← expect .rightParen .parametersClose
    let _ ← expect .leftBrace .functionBody
    let (body, close) ← blockRest n
    pure (.function name.lexeme params body (keyword.span.through close.span))

/-- The statements of a block and the brace that closes it, after the one that opens it. -/
def blockRest : Nat → Reader (List Stmt × Token)
  | 0 => exhausted
  | n + 1 => do
    match ← accept .rightBrace with
    | some close => pure ([], close)
    | none =>
      if ← atEnd then fault .blockClose
      else
        let s ← declaration n
        let (ss, close) ← blockRest n
        pure (s :: ss, close)

/-- A statement. -/
def statement : Nat → Reader Stmt
  | 0 => exhausted
  | n + 1 => do
    match ← acceptAs lead? with
    | none => expressionStatement n
    | some (.ifLead, keyword) =>
      let _ ← expect .leftParen .ifOpen
      let condition ← expression n
      let _ ← expect .rightParen .ifClose
      let yes ← statement n
      match ← accept .else with
      | none => pure (.branch condition yes none (keyword.span.through yes.span))
      | some _ =>
        let no ← statement n
        pure (.branch condition yes (some no) (keyword.span.through no.span))
    | some (.whileLead, keyword) =>
      let _ ← expect .leftParen .whileOpen
      let condition ← expression n
      let _ ← expect .rightParen .whileClose
      let body ← statement n
      pure (.loop condition body (keyword.span.through body.span))
    | some (.forLead, keyword) =>
      let _ ← expect .leftParen .forOpen
      let start ← forStart n
      let condition ← optionalUntil n .semicolon
      let _ ← expect .semicolon .forCondition
      let step ← optionalUntil n .rightParen
      let _ ← expect .rightParen .forClose
      let body ← statement n
      pure (forLoop keyword.span start condition step body)
    | some (.returnLead, keyword) => returnStatement n keyword
    | some (.printLead newline, keyword) => printStatement n newline keyword
    | some (.inputLead, keyword) => inputStatement n keyword
    | some (.blockLead, opened) =>
      let (body, close) ← blockRest n
      pure (.block body (opened.span.through close.span))

end

end StepScript.Grammar
