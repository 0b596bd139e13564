import StepScript.Grammar.Expression

/-!
# The grammar of the language

The grammar says which lists of tokens spell which trees. It does so by rules alone and knows nothing of a cursor, of
lookahead or of the order in which tokens are read; the spans of a tree are left open.

- `Spells r ts e`: the tokens `ts` spell the expression `e` at the rank `r`. An expression of a rank is one of the next
  tighter rank, or is made by a rule of its own rank. The operators between operands group to the left, an assignment
  groups to the right;
- `Sentence o ts s`: the tokens spell a statement. One that ends in an `if` without `else` is dangling: an `else` behind
  it would belong to that `if`, so the branch before an `else` never is;
- `Declares` adds functions, `Passage` is a sequence of declarations.

Every rule uses all tokens of its parts, in order, between its own.
-/

namespace StepScript.Grammar

/-! ## Ranks and operators -/

/-- The ranks of expressions, the loosest first. -/
inductive Rank where
  | assignment
  | or
  | and
  | equality
  | comparison
  | term
  | factor
  | sign
  | access
  | operand
deriving DecidableEq

/-- The next tighter rank. -/
inductive Rank.Next : Rank → Rank → Prop
  | assignment : Next .assignment .or
  | or : Next .or .and
  | and : Next .and .equality
  | equality : Next .equality .comparison
  | comparison : Next .comparison .term
  | term : Next .term .factor
  | factor : Next .factor .sign
  | sign : Next .sign .access
  | access : Next .access .operand

/-- The tree of two joined operands, with its span left open. -/
def Joint.node : Joint → Expr → Expr → Span → Expr
  | logical op => .logical op
  | binary op => .binary op

/-- The operators between two operands, with their rank. -/
inductive Joins : Rank → TokenKind → Joint → Prop
  | or : Joins .or .or (.logical .or)
  | and : Joins .and .and (.logical .and)
  | equal : Joins .equality .equalEqual (.binary .equal)
  | notEqual : Joins .equality .bangEqual (.binary .notEqual)
  | less : Joins .comparison .less (.binary .less)
  | lessEqual : Joins .comparison .lessEqual (.binary .lessEqual)
  | greater : Joins .comparison .greater (.binary .greater)
  | greaterEqual : Joins .comparison .greaterEqual (.binary .greaterEqual)
  | add : Joins .term .plus (.binary .add)
  | subtract : Joins .term .minus (.binary .subtract)
  | multiply : Joins .factor .star (.binary .multiply)
  | divide : Joins .factor .slash (.binary .divide)

/-- The signs before an operand. -/
inductive Signs : TokenKind → UnaryOp → Prop
  | negate : Signs .minus .negate
  | not : Signs .bang .not

/-- The tokens that write a value down. -/
inductive Denotes : Token → Literal → Prop
  | null {t : Token} : t.kind = .null → Denotes t .null
  | true {t : Token} : t.kind = .true → Denotes t (.boolean Bool.true)
  | false {t : Token} : t.kind = .false → Denotes t (.boolean Bool.false)
  | number {t : Token} {x : Float} : t.kind = .number ∨ t.kind = .string → t.payload = some (.number x) →
      Denotes t (.number x)
  | text {t : Token} {x : String} : t.kind = .number ∨ t.kind = .string → t.payload = some (.text x) →
      Denotes t (.text x)

/-- The tokens that name a variable: names, and the words for output and input. -/
inductive IsName : TokenKind → Prop
  | identifier : IsName .identifier
  | print : IsName .print
  | printLine : IsName .printLine
  | input : IsName .input

/-! ## Expressions -/

mutual

/-- The tokens spell an expression at a rank. -/
inductive Spells : Rank → List Token → Expr → Prop
  | next {r q : Rank} {ts : List Token} {e : Expr} : r.Next q → Spells q ts e → Spells r ts e
  /-- Operands joined by an operator; the right one is of the next tighter rank. -/
  | join {r q : Rank} {ls rs : List Token} {op : Token} {left right : Expr} {j : Joint} (span : Span) :
      Joins r op.kind j → r.Next q → Spells r ls left → Spells q rs right →
      Spells r (ls ++ op :: rs) (j.node left right span)
  | assign {ts vs : List Token} {equals : Token} {x : String} {value : Expr} {s : Span} (span : Span) :
      Spells .access ts (.name x s) → equals.kind = .equal → Spells .assignment vs value →
      Spells .assignment (ts ++ equals :: vs) (.assign x value span)
  | setProperty {ts vs : List Token} {equals : Token} {object : Expr} {x : String} {value : Expr} {s : Span}
      (span : Span) : Spells .access ts (.property object x s) → equals.kind = .equal →
      Spells .assignment vs value → Spells .assignment (ts ++ equals :: vs) (.setProperty object x value span)
  | setElement {ts vs : List Token} {equals : Token} {object index value : Expr} {s : Span} (span : Span) :
      Spells .access ts (.element object index s) → equals.kind = .equal → Spells .assignment vs value →
      Spells .assignment (ts ++ equals :: vs) (.setElement object index value span)
  | sign {ts : List Token} {t : Token} {op : UnaryOp} {e : Expr} (span : Span) : Signs t.kind op →
      Spells .sign ts e → Spells .sign (t :: ts) (.unary op e span)
  | call {ts us : List Token} {opened closed : Token} {callee : Expr} {args : List Expr} (span : Span) :
      Spells .access ts callee → opened.kind = .leftParen → SpellsList us args → args.length ≤ 255 →
      closed.kind = .rightParen → Spells .access (ts ++ opened :: (us ++ [closed])) (.call callee args span)
  | element {ts us : List Token} {opened closed : Token} {object index : Expr} (span : Span) :
      Spells .access ts object → opened.kind = .leftBracket → Spells .assignment us index →
      closed.kind = .rightBracket → Spells .access (ts ++ opened :: (us ++ [closed])) (.element object index span)
  | property {ts : List Token} {dot name : Token} {object : Expr} (span : Span) : Spells .access ts object →
      dot.kind = .dot → name.kind = .identifier →
      Spells .access (ts ++ [dot, name]) (.property object name.lexeme span)
  | literal {t : Token} {value : Literal} (span : Span) : Denotes t value → Spells .operand [t] (.literal value span)
  | name {t : Token} (span : Span) : IsName t.kind → Spells .operand [t] (.name t.lexeme span)
  | group {ts : List Token} {opened closed : Token} {e : Expr} (span : Span) : opened.kind = .leftParen →
      Spells .assignment ts e → closed.kind = .rightParen →
      Spells .operand (opened :: (ts ++ [closed])) (.group e span)
  | array {ts : List Token} {opened closed : Token} {es : List Expr} (span : Span) : opened.kind = .leftBracket →
      SpellsList ts es → closed.kind = .rightBracket → Spells .operand (opened :: (ts ++ [closed])) (.array es span)

/-- The tokens spell expressions with commas between. -/
inductive SpellsList : List Token → List Expr → Prop
  | none : SpellsList [] []
  | some {ts : List Token} {es : List Expr} : SpellsSome ts es → SpellsList ts es

/-- The tokens spell at least one expression, with commas between. -/
inductive SpellsSome : List Token → List Expr → Prop
  | one {ts : List Token} {e : Expr} : Spells .assignment ts e → SpellsSome ts [e]
  | more {ts us : List Token} {comma : Token} {e : Expr} {es : List Expr} : Spells .assignment ts e →
      comma.kind = .comma → SpellsSome us es → SpellsSome (ts ++ comma :: us) (e :: es)

end

/-- The tokens spell an expression that may be missing. -/
inductive SpellsOption : List Token → Option Expr → Prop
  | none : SpellsOption [] none
  | some {ts : List Token} {e : Expr} : Spells .assignment ts e → SpellsOption ts (some e)

/-! ## Statements -/

/-- An expression as a statement: the assignment of a variable is a statement of its own. -/
inductive Effect : Expr → Stmt → Prop
  | assign (x : String) (value : Expr) (s span : Span) : Effect (.assign x value s) (.assign x value span)
  | expr {e : Expr} (span : Span) : (∀ x value s, e ≠ .assign x value s) → Effect e (.expr e span)

/-- The body of a `for` with its step behind it. -/
inductive Turn : Option Expr → Stmt → Stmt → Prop
  | plain (body : Stmt) : Turn none body body
  | step {e : Expr} {s : Stmt} (body : Stmt) (span : Span) : Effect e s → Turn (some e) body (.block [body, s] span)

/-- The condition of a `for`: one that is missing is true. -/
inductive Condition : Option Expr → Expr → Prop
  | always (span : Span) : Condition none (.literal (.boolean true) span)
  | given (e : Expr) : Condition (some e) e

/-- The loop of a `for` with its start before it. -/
inductive Opened : Option Stmt → Stmt → Stmt → Prop
  | plain (loop : Stmt) : Opened none loop loop
  | start (s loop : Stmt) (span : Span) : Opened (some s) loop (.block [s, loop] span)

/-- The tokens do not begin with one of the words for output and input. -/
def Unworded (ts : List Token) : Prop :=
  ∀ t ∈ ts.head?, t.kind ≠ .print ∧ t.kind ≠ .printLine ∧ t.kind ≠ .input

/-- The first part of a `for` with its semicolon. -/
inductive Starts : List Token → Option Stmt → Prop
  | none {t : Token} : t.kind = .semicolon → Starts [t] none
  | some {ts : List Token} {t : Token} {e : Expr} {s : Stmt} : Spells .assignment ts e → Effect e s →
      t.kind = .semicolon → Starts (ts ++ [t]) (some s)

/-- The tokens spell at least one name, with commas between. -/
inductive Names : List Token → List String → Prop
  | one {t : Token} : t.kind = .identifier → Names [t] [t.lexeme]
  | more {t comma : Token} {ts : List Token} {xs : List String} : t.kind = .identifier → comma.kind = .comma →
      Names ts xs → Names (t :: comma :: ts) (t.lexeme :: xs)

/-- Whether an `else` behind a statement would belong to it. -/
inductive Ending where
  | closed
  | dangling
deriving DecidableEq

mutual

/-- The tokens spell a statement. -/
inductive Sentence : Ending → List Token → Stmt → Prop
  | effect {ts : List Token} {close : Token} {e : Expr} {s : Stmt} : Spells .assignment ts e → Effect e s →
      Unworded ts → close.kind = .semicolon → Sentence .closed (ts ++ [close]) s
  | print {ts : List Token} {word opened closed close : Token} {e : Expr} (span : Span) : word.kind = .print →
      opened.kind = .leftParen → Spells .assignment ts e → closed.kind = .rightParen → close.kind = .semicolon →
      Sentence .closed (word :: opened :: (ts ++ [closed, close])) (.print e false span)
  | printLine {ts : List Token} {word opened closed close : Token} {e : Expr} (span : Span) :
      word.kind = .printLine → opened.kind = .leftParen → Spells .assignment ts e → closed.kind = .rightParen →
      close.kind = .semicolon → Sentence .closed (word :: opened :: (ts ++ [closed, close])) (.print e true span)
  | input {ts : List Token} {word opened closed close : Token} {e : Option Expr} (span : Span) :
      word.kind = .input → opened.kind = .leftParen → SpellsOption ts e → closed.kind = .rightParen →
      close.kind = .semicolon →
      Sentence .closed (word :: opened :: (ts ++ [closed, close])) (.input word.lexeme e span)
  | block {ts : List Token} {opened closed : Token} {body : List Stmt} (span : Span) : opened.kind = .leftBrace →
      Passage ts body → closed.kind = .rightBrace → Sentence .closed (opened :: (ts ++ [closed])) (.block body span)
  | branch {o : Ending} {ts us : List Token} {word opened closed : Token} {e : Expr} {yes : Stmt} (span : Span) :
      word.kind = .if → opened.kind = .leftParen → Spells .assignment ts e → closed.kind = .rightParen →
      Sentence o us yes → Sentence .dangling (word :: opened :: (ts ++ closed :: us)) (.branch e yes none span)
  /-- An `else` belongs to the nearest `if` that has none. -/
  | branchElse {o : Ending} {ts us vs : List Token} {word opened closed other : Token} {e : Expr} {yes no : Stmt}
      (span : Span) : word.kind = .if → opened.kind = .leftParen → Spells .assignment ts e →
      closed.kind = .rightParen → Sentence .closed us yes → other.kind = .else → Sentence o vs no →
      Sentence o (word :: opened :: (ts ++ closed :: (us ++ other :: vs))) (.branch e yes (some no) span)
  | loop {o : Ending} {ts us : List Token} {word opened closed : Token} {e : Expr} {body : Stmt} (span : Span) :
      word.kind = .while → opened.kind = .leftParen → Spells .assignment ts e → closed.kind = .rightParen →
      Sentence o us body → Sentence o (word :: opened :: (ts ++ closed :: us)) (.loop e body span)
  /-- A `for` is the loop that it stands for. -/
  | forLoop {o : Ending} {as cs ts us : List Token} {word opened middle closed : Token} {start : Option Stmt}
      {condition step : Option Expr} {e : Expr} {body turn whole : Stmt} (span : Span) : word.kind = .for →
      opened.kind = .leftParen → Starts as start → SpellsOption cs condition → middle.kind = .semicolon →
      SpellsOption ts step → closed.kind = .rightParen → Sentence o us body → Turn step body turn →
      Condition condition e → Opened start (.loop e turn span) whole →
      Sentence o (word :: opened :: (as ++ (cs ++ middle :: (ts ++ closed :: us)))) whole
  | leave {ts : List Token} {word close : Token} {e : Option Expr} (span : Span) : word.kind = .return →
      SpellsOption ts e → close.kind = .semicolon → Sentence .closed (word :: (ts ++ [close])) (.leave e span)

/-- The tokens spell a function or a statement. -/
inductive Declares : List Token → Stmt → Prop
  | function {ps ts : List Token} {word name opened closed brace close : Token} {params : List String}
      {body : List Stmt} (span : Span) : word.kind = .function → name.kind = .identifier →
      opened.kind = .leftParen → (ps = [] ∧ params = []) ∨ Names ps params → params.length ≤ 255 →
      closed.kind = .rightParen → brace.kind = .leftBrace → Passage ts body → close.kind = .rightBrace →
      Declares (word :: name :: opened :: (ps ++ closed :: brace :: (ts ++ [close])))
        (.function name.lexeme params body span)
  | statement {o : Ending} {ts : List Token} {s : Stmt} : Sentence o ts s → Declares ts s

/-- The tokens spell declarations, one after the other. -/
inductive Passage : List Token → List Stmt → Prop
  | nil : Passage [] []
  | cons {ts us : List Token} {s : Stmt} {ss : List Stmt} : Declares ts s → Passage us ss →
      Passage (ts ++ us) (s :: ss)

end

end StepScript.Grammar
