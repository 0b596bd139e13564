import StepScript.Grammar.Cursor
import StepScript.Tree

/-!
# Reading expressions

Operators bind in tiers: assignment is the loosest and groups to the right, then come the six tiers of
binary operators, which group to the left, then the signs before an operand, then calls and accesses after
it.

The readers call each other without taking a token only down the tiers, so a bound on the depth of calls
in proportion to the number of tokens is never met; `Grammar.bound` gives it.
-/

namespace StepScript.Grammar

open Reader

/-- Lists of parameters and arguments are at most this long. -/
def maxArguments : Nat := 255

/-- The tiers of binary operators, the loosest first. -/
inductive Tier where
  | or
  | and
  | equality
  | comparison
  | term
  | factor
deriving DecidableEq

/-- The tier of the operands, if they are in a tier themselves. -/
def Tier.next? : Tier → Option Tier
  | or => some and
  | and => some equality
  | equality => some comparison
  | comparison => some term
  | term => some factor
  | factor => none

/-- What an operator between two operands makes of them. -/
inductive Joint where
  | logical (op : LogicalOp)
  | binary (op : BinaryOp)
deriving DecidableEq

/-- The operators of a tier. -/
def Tier.joint? : Tier → TokenKind → Option Joint
  | or, .or => some (.logical .or)
  | and, .and => some (.logical .and)
  | equality, .bangEqual => some (.binary .notEqual)
  | equality, .equalEqual => some (.binary .equal)
  | comparison, .greater => some (.binary .greater)
  | comparison, .greaterEqual => some (.binary .greaterEqual)
  | comparison, .less => some (.binary .less)
  | comparison, .lessEqual => some (.binary .lessEqual)
  | term, .minus => some (.binary .subtract)
  | term, .plus => some (.binary .add)
  | factor, .slash => some (.binary .divide)
  | factor, .star => some (.binary .multiply)
  | _, _ => none

/-- Two operands joined by an operator. -/
def Joint.join (left : Expr) (right : Expr) : Joint → Expr
  | logical op => .logical op left right (left.span.through right.span)
  | binary op => .binary op left right (left.span.through right.span)

/-- The signs before an operand. -/
def sign? : TokenKind → Option UnaryOp
  | .bang => some .not
  | .minus => some .negate
  | _ => none

/-- What may follow an operand. -/
inductive Suffix where
  | arguments
  | index
  | property
deriving DecidableEq

def suffix? : TokenKind → Option Suffix
  | .leftParen => some .arguments
  | .leftBracket => some .index
  | .dot => some .property
  | _ => none

/-- The assignment of `value` to what `target` reads: a variable, a property or an element. -/
def assignTo (target : Expr) (equals : Token) (value : Expr) : Reader Expr :=
  let span := target.span.through value.span
  match target with
  | .name name _ => pure (.assign name value span)
  | .property object name _ => pure (.setProperty object name value span)
  | .element object index _ => pure (.setElement object index value span)
  | _ => faultAt equals .assignmentTarget

/-- The advice for a token that starts no expression. -/
def misplaced : TokenKind → Misplaced
  | .rightParen => .rightParen
  | .rightBrace => .rightBrace
  | .rightBracket => .rightBracket
  | .function => .function
  | _ => .other

/-- What the first token of an operand says about it. -/
inductive Opening where
  | whole (e : Expr)
  | group
  | array
  /-- A number or a string that carries no value. -/
  | hollow
  | none

/-- The opening that a token is. The words for output and input stand for the builtins of that name. -/
def opening (t : Token) : Opening :=
  match t.kind with
  | .false => .whole (.literal (.boolean false) t.span)
  | .true => .whole (.literal (.boolean true) t.span)
  | .null => .whole (.literal .null t.span)
  | .number | .string =>
    match t.payload with
    | some (.number value) => .whole (.literal (.number value) t.span)
    | some (.text value) => .whole (.literal (.text value) t.span)
    | Option.none => .hollow
  | .identifier | .print | .printLine | .input => .whole (.name t.lexeme t.span)
  | .leftParen => .group
  | .leftBracket => .array
  | _ => .none

/-- The token an operand opens with and what it says. A token that opens none is left where it is. -/
def takeOpening : Reader (Opening × Token) := fun c =>
  match c.ahead with
  | [] => .failed (c.diagnose (.expression .nothing)) c
  | t :: ts =>
    match opening t with
    | .none => .failed (c.diagnose (.expression (misplaced t.kind))) c
    | o => .done (o, t) ⟨some t, ts⟩

mutual

/-- An expression of any tier. -/
def expression : Nat → Reader Expr
  | 0 => exhausted
  | n + 1 => do
    let target ← tier n .or
    match ← accept .equal with
    | none => pure target
    | some equals =>
      let value ← expression n
      assignTo target equals value

/-- Operands joined by the operators of a tier, from left to right. -/
def tier : Nat → Tier → Reader Expr
  | 0, _ => exhausted
  | n + 1, t => do
    let first ← operand n t
    tierRest n t first

/-- An operand of a tier. -/
def operand : Nat → Tier → Reader Expr
  | 0, _ => exhausted
  | n + 1, t =>
    match t.next? with
    | some tighter => tier n tighter
    | none => signed n

/-- The rest of a tier after its operands so far. -/
def tierRest : Nat → Tier → Expr → Reader Expr
  | 0, _, _ => exhausted
  | n + 1, t, left => do
    match ← acceptAs t.joint? with
    | none => pure left
    | some (joint, _) =>
      let right ← operand n t
      tierRest n t (joint.join left right)

/-- An operand with the signs before it. -/
def signed : Nat → Reader Expr
  | 0 => exhausted
  | n + 1 => do
    match ← acceptAs sign? with
    | some (op, t) =>
      let inner ← signed n
      pure (.unary op inner (t.span.through inner.span))
    | none =>
      let first ← primary n
      suffixes n first

/-- Calls, elements and properties after an operand, in any order. -/
def suffixes : Nat → Expr → Reader Expr
  | 0, _ => exhausted
  | n + 1, e => do
    match ← acceptAs suffix? with
    | none => pure e
    | some (.arguments, _) =>
      let args ← listUntil n .rightParen (some maxArguments)
      let close ← expect .rightParen .argumentsClose
      suffixes n (.call e args (e.span.through close.span))
    | some (.index, _) =>
      let index ← expression n
      let close ← expect .rightBracket .indexClose
      suffixes n (.element e index (e.span.through close.span))
    | some (.property, _) =>
      let name ← expect .identifier .propertyName
      suffixes n (.property e name.lexeme (e.span.through name.span))

/-- Expressions up to a closing token, which is left: none at all, or some with commas between. -/
def listUntil : Nat → TokenKind → Option Nat → Reader (List Expr)
  | 0, _, _ => exhausted
  | n + 1, close, room => do
    if ← sees close then pure [] else list n room

/-- At least one expression, with commas between. There is room for so many, if that is limited. -/
def list : Nat → Option Nat → Reader (List Expr)
  | 0, _ => exhausted
  | _ + 1, some 0 => fault .tooManyArguments
  | n + 1, room => do
    let e ← expression n
    match ← accept .comma with
    | none => pure [e]
    | some _ =>
      let es ← list n (room.map (· - 1))
      pure (e :: es)

/-- A literal, a name, a parenthesised expression or a list of elements. -/
def primary : Nat → Reader Expr
  | 0 => exhausted
  | n + 1 => do
    let (o, t) ← takeOpening
    match o with
    | .whole e => pure e
    | .group =>
      let inner ← expression n
      let close ← expect .rightParen .groupClose
      pure (.group inner (t.span.through close.span))
    | .array =>
      let items ← listUntil n .rightBracket none
      let close ← expect .rightBracket .arrayClose
      pure (.array items (t.span.through close.span))
    | _ => faultAt t .literal

end

end StepScript.Grammar
