import StepScript.Span

/-!
# Program trees

Expressions and statements, each with the span of source text it was read from.
-/

namespace StepScript

/-- The values that can be written down. -/
inductive Literal where
  | null
  | boolean (value : Bool)
  | number (value : Float)
  | text (value : String)

/-- The operators that take two values. -/
inductive BinaryOp where
  | add
  | subtract
  | multiply
  | divide
  | equal
  | notEqual
  | less
  | lessEqual
  | greater
  | greaterEqual
deriving DecidableEq

/-- The operators that may leave their right operand alone. -/
inductive LogicalOp where
  | and
  | or
deriving DecidableEq

/-- The operators that take one value. -/
inductive UnaryOp where
  | negate
  | not
deriving DecidableEq

/-- Expressions. -/
inductive Expr where
  | literal (value : Literal) (span : Span)
  | name (name : String) (span : Span)
  | assign (name : String) (value : Expr) (span : Span)
  | binary (op : BinaryOp) (left right : Expr) (span : Span)
  | logical (op : LogicalOp) (left right : Expr) (span : Span)
  | unary (op : UnaryOp) (operand : Expr) (span : Span)
  | call (callee : Expr) (args : List Expr) (span : Span)
  | group (inner : Expr) (span : Span)
  | array (items : List Expr) (span : Span)
  /-- Reading a property, `object.name`. -/
  | property (object : Expr) (name : String) (span : Span)
  /-- Reading an element, `object[index]`. -/
  | element (object index : Expr) (span : Span)
  /-- Writing a property, `object.name = value`. -/
  | setProperty (object : Expr) (name : String) (value : Expr) (span : Span)
  /-- Writing an element, `object[index] = value`. -/
  | setElement (object index value : Expr) (span : Span)
deriving Inhabited

/-- The span of an expression. -/
def Expr.span : Expr → Span
  | literal _ span => span
  | name _ span => span
  | assign _ _ span => span
  | binary _ _ _ span => span
  | logical _ _ _ span => span
  | unary _ _ span => span
  | call _ _ span => span
  | group _ span => span
  | array _ span => span
  | property _ _ span => span
  | element _ _ span => span
  | setProperty _ _ _ span => span
  | setElement _ _ _ span => span

/-- Statements. -/
inductive Stmt where
  /-- An expression evaluated for its effect, or for its value at the top level. -/
  | expr (expr : Expr) (span : Span)
  | print (expr : Expr) (newline : Bool) (span : Span)
  /-- Reading a line that is thrown away. -/
  | input (keyword : String) (prompt : Option Expr) (span : Span)
  /-- The assignment of a variable as a whole statement. -/
  | assign (name : String) (value : Expr) (span : Span)
  | block (body : List Stmt) (span : Span)
  | branch (condition : Expr) (yes : Stmt) (no : Option Stmt) (span : Span)
  | loop (condition : Expr) (body : Stmt) (span : Span)
  | function (name : String) (params : List String) (body : List Stmt) (span : Span)
  | leave (value : Option Expr) (span : Span)
deriving Inhabited

/-- The span of a statement. -/
def Stmt.span : Stmt → Span
  | expr _ span => span
  | print _ _ span => span
  | input _ _ span => span
  | assign _ _ span => span
  | block _ span => span
  | branch _ _ _ span => span
  | loop _ _ span => span
  | function _ _ _ span => span
  | leave _ span => span

/-- The line a statement starts on. -/
def Stmt.line (s : Stmt) : Nat := s.span.line

/-- Whether a statement is a block; blocks are entered without being announced. -/
def Stmt.isBlock : Stmt → Bool
  | block _ _ => true
  | _ => false

/-- A program is its top-level statements in order. -/
abbrev Program := List Stmt

end StepScript
