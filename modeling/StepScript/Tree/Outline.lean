import StepScript.Number.Text
import StepScript.Text.Escaped
import StepScript.Tree

/-!
# Outlines of trees

A tree on one line: every node in parentheses, its head first, its parts in order and its span last. It is for hosts
that show or compare what was parsed; a program is run from its tree.
-/

namespace StepScript

/-- A span as `@start-stop:line`. -/
def Span.outline (s : Span) : String :=
  "@" ++ Number.natText s.start ++ "-" ++ Number.natText s.stop ++ ":" ++ Number.natText s.line

/-- A node from its head, its parts and its span. -/
def outlineNode (parts : List String) (span : Span) : String :=
  "(" ++ String.intercalate " " (parts ++ [span.outline]) ++ ")"

def BinaryOp.outline : BinaryOp → String
  | add => "Add"
  | subtract => "Subtract"
  | multiply => "Multiply"
  | divide => "Divide"
  | equal => "Equal"
  | notEqual => "NotEqual"
  | less => "Less"
  | lessEqual => "LessEqual"
  | greater => "Greater"
  | greaterEqual => "GreaterEqual"

def LogicalOp.outline : LogicalOp → String
  | and => "And"
  | or => "Or"

def UnaryOp.outline : UnaryOp → String
  | negate => "Negate"
  | not => "Not"

/-- The head and the value of a literal. -/
def Literal.outline : Literal → List String
  | null => ["null", "null"]
  | boolean value => ["boolean", if value then "true" else "false"]
  | number value => ["number", Number.text value]
  | text value => ["str", Text.escaped value]

mutual

/-- The outline of an expression. -/
def Expr.outline : Expr → String
  | .literal value span => outlineNode value.outline span
  | .name x span => outlineNode ["var", x] span
  | .assign x value span => outlineNode ["set-var", x, value.outline] span
  | .binary op left right span => outlineNode [op.outline, left.outline, right.outline] span
  | .logical op left right span => outlineNode [op.outline, left.outline, right.outline] span
  | .unary op operand span => outlineNode [op.outline, operand.outline] span
  | .call callee args span => outlineNode ("call" :: callee.outline :: Expr.outlines args) span
  | .group inner span => outlineNode ["group", inner.outline] span
  | .array items span => outlineNode ("array" :: Expr.outlines items) span
  | .property object key span => outlineNode ["get", object.outline, "." ++ key] span
  | .element object index span => outlineNode ["get", object.outline, "[" ++ index.outline ++ "]"] span
  | .setProperty object key value span =>
    outlineNode ["set", object.outline, "." ++ key, value.outline] span
  | .setElement object index value span =>
    outlineNode ["set", object.outline, "[" ++ index.outline ++ "]", value.outline] span

/-- The outlines of expressions in order. -/
def Expr.outlines : List Expr → List String
  | [] => []
  | e :: es => e.outline :: Expr.outlines es

end

/-- The outline of a part that may be missing. -/
def Expr.outline? : Option Expr → String
  | some e => e.outline
  | none => "-"

mutual

/-- The outline of a statement. -/
def Stmt.outline : Stmt → String
  | .expr e span => outlineNode ["expr", e.outline] span
  | .print e newline span => outlineNode [if newline then "println" else "print", e.outline] span
  | .input keyword prompt span => outlineNode ["input", keyword, Expr.outline? prompt] span
  | .assign name value span => outlineNode ["assign", name, value.outline] span
  | .block body span => outlineNode ("block" :: Stmt.outlines body) span
  | .branch condition yes (some no) span =>
    outlineNode ["if", condition.outline, yes.outline, no.outline] span
  | .branch condition yes none span => outlineNode ["if", condition.outline, yes.outline, "-"] span
  | .loop condition body span => outlineNode ["while", condition.outline, body.outline] span
  | .function name params body span =>
    outlineNode ("function" :: name :: ("[" ++ String.intercalate "," params ++ "]") :: Stmt.outlines body)
      span
  | .leave value span => outlineNode ["return", Expr.outline? value] span

/-- The outlines of statements in order. -/
def Stmt.outlines : List Stmt → List String
  | [] => []
  | s :: ss => s.outline :: Stmt.outlines ss

end

end StepScript
