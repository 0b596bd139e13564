import StepScript.Proofs.Grammar.Completeness
import StepScript.Token.Scan

/-!
# Parsing undoes rendering

A tree is rendered to the tokens that spell it, in order and with no parentheses of its own (`Expr.tokens`,
`Stmt.tokens`). Some trees have no spelling: an operator whose operand is looser than its rank, a name that is a
keyword, a statement that would swallow the `else` behind it. Those that have one respect the grammar (`Expr.respects`,
`Stmt.respects`), and their tokens are parsed back to them, modulo spans and wherever the tokens stand in a text
(`parse_render`).
-/

namespace StepScript

/-- A token without its span. -/
def Token.bare (t : Token) : Token := { t with span := .blank }

namespace Grammar

/-! ## Tokens -/

/-- How the tokens that are always spelled alike are spelled. -/
def spelling : TokenKind → String
  | .leftParen => "("
  | .rightParen => ")"
  | .leftBrace => "\x7b"
  | .rightBrace => "\x7d"
  | .leftBracket => "["
  | .rightBracket => "]"
  | .comma => ","
  | .dot => "."
  | .minus => "-"
  | .plus => "+"
  | .semicolon => ";"
  | .slash => "/"
  | .star => "*"
  | .bang => "!"
  | .bangEqual => "!="
  | .equal => "="
  | .equalEqual => "=="
  | .greater => ">"
  | .greaterEqual => ">="
  | .less => "<"
  | .lessEqual => "<="
  | .and => "and"
  | .else => "else"
  | .false => "false"
  | .for => "for"
  | .function => "function"
  | .if => "if"
  | .null => "null"
  | .or => "or"
  | .return => "return"
  | .true => "true"
  | .while => "while"
  | .print => "print"
  | .printLine => "etb3"
  | .identifier | .string | .number | .input | .eof => ""

/-- A token that is always spelled alike. -/
def fixed (kind : TokenKind) : Token := ⟨kind, spelling kind, none, .blank⟩

/-- The token of a word. -/
def word (x : String) : Token := ⟨wordKind x, x, none, .blank⟩

/-- The token of a literal. -/
def literalToken : Literal → Token
  | .null => fixed .null
  | .boolean true => fixed .true
  | .boolean false => fixed .false
  | .number x => ⟨.number, Number.text x, some (.number x), .blank⟩
  | .text x => ⟨.string, "\"" ++ x ++ "\"", some (.text x), .blank⟩

/-- The rank and the sign of an operator between two operands. -/
def operator : Joint → Rank × TokenKind
  | .logical .or => (.or, .or)
  | .logical .and => (.and, .and)
  | .binary .equal => (.equality, .equalEqual)
  | .binary .notEqual => (.equality, .bangEqual)
  | .binary .less => (.comparison, .less)
  | .binary .lessEqual => (.comparison, .lessEqual)
  | .binary .greater => (.comparison, .greater)
  | .binary .greaterEqual => (.comparison, .greaterEqual)
  | .binary .add => (.term, .plus)
  | .binary .subtract => (.term, .minus)
  | .binary .multiply => (.factor, .star)
  | .binary .divide => (.factor, .slash)

/-- The sign of an operator before an operand. -/
def signToken : UnaryOp → TokenKind
  | .negate => .minus
  | .not => .bang

/-- Names with commas between. -/
def nameTokens : List String → List Token
  | [] => []
  | [x] => [word x]
  | x :: xs => word x :: fixed .comma :: nameTokens xs

end Grammar

open Grammar

/-! ## Rendering -/

mutual

/-- The tokens of an expression. -/
def Expr.tokens : Expr → List Token
  | .literal value _ => [literalToken value]
  | .name x _ => [word x]
  | .assign x value _ => word x :: fixed .equal :: value.tokens
  | .binary op left right _ => left.tokens ++ fixed (operator (.binary op)).2 :: right.tokens
  | .logical op left right _ => left.tokens ++ fixed (operator (.logical op)).2 :: right.tokens
  | .unary op operand _ => fixed (signToken op) :: operand.tokens
  | .call callee args _ => callee.tokens ++ fixed .leftParen :: (Expr.listTokens args ++ [fixed .rightParen])
  | .group inner _ => fixed .leftParen :: (inner.tokens ++ [fixed .rightParen])
  | .array items _ => fixed .leftBracket :: (Expr.listTokens items ++ [fixed .rightBracket])
  | .property object x _ => object.tokens ++ [fixed .dot, word x]
  | .element object index _ => object.tokens ++ fixed .leftBracket :: (index.tokens ++ [fixed .rightBracket])
  | .setProperty object x value _ => object.tokens ++ [fixed .dot, word x] ++ fixed .equal :: value.tokens
  | .setElement object index value _ =>
    object.tokens ++ fixed .leftBracket :: (index.tokens ++ [fixed .rightBracket]) ++ fixed .equal :: value.tokens

/-- The tokens of expressions with commas between. -/
def Expr.listTokens : List Expr → List Token
  | [] => []
  | [e] => e.tokens
  | e :: es => e.tokens ++ fixed .comma :: Expr.listTokens es

end

/-- The tokens of an expression that may be missing. -/
def Expr.optionTokens : Option Expr → List Token
  | none => []
  | some e => e.tokens

mutual

/-- The tokens of a statement. -/
def Stmt.tokens : Stmt → List Token
  | .expr e _ => e.tokens ++ [fixed .semicolon]
  | .print e newline _ =>
    fixed (if newline then .printLine else .print) :: fixed .leftParen ::
      (e.tokens ++ [fixed .rightParen, fixed .semicolon])
  | .input keyword prompt _ =>
    word keyword :: fixed .leftParen :: (Expr.optionTokens prompt ++ [fixed .rightParen, fixed .semicolon])
  | .assign x value _ => word x :: fixed .equal :: (value.tokens ++ [fixed .semicolon])
  | .block body _ => fixed .leftBrace :: (Stmt.listTokens body ++ [fixed .rightBrace])
  | .branch condition yes none _ =>
    fixed .if :: fixed .leftParen :: (condition.tokens ++ fixed .rightParen :: yes.tokens)
  | .branch condition yes (some no) _ =>
    fixed .if :: fixed .leftParen :: (condition.tokens ++ fixed .rightParen :: (yes.tokens ++ fixed .else :: no.tokens))
  | .loop condition body _ =>
    fixed .while :: fixed .leftParen :: (condition.tokens ++ fixed .rightParen :: body.tokens)
  | .function x params body _ =>
    fixed .function :: word x :: fixed .leftParen :: (nameTokens params ++ fixed .rightParen :: fixed .leftBrace ::
      (Stmt.listTokens body ++ [fixed .rightBrace]))
  | .leave value _ => fixed .return :: (Expr.optionTokens value ++ [fixed .semicolon])

/-- The tokens of statements, one after the other. -/
def Stmt.listTokens : List Stmt → List Token
  | [] => []
  | s :: ss => s.tokens ++ Stmt.listTokens ss

end

/-! ## Trees that have a spelling -/

/-- Whether a name is a plain identifier. -/
def isPlain (x : String) : Bool := wordKind x == .identifier

/-- Whether a name can name a variable: the words for output and input can. -/
def isNameable (x : String) : Bool :=
  wordKind x == .identifier || wordKind x == .print || wordKind x == .printLine || wordKind x == .input

/-- The rank of an expression by its outermost part. -/
def Expr.rank : Expr → Rank
  | .literal _ _ | .name _ _ | .group _ _ | .array _ _ => .operand
  | .call _ _ _ | .property _ _ _ | .element _ _ _ => .access
  | .unary _ _ _ => .sign
  | .binary op _ _ _ => (operator (.binary op)).1
  | .logical op _ _ _ => (operator (.logical op)).1
  | .assign _ _ _ | .setProperty _ _ _ _ | .setElement _ _ _ _ => .assignment

/-- Whether an expression may stand where a rank is asked for. -/
def Expr.sits (e : Expr) (r : Rank) : Bool := r.level ≤ e.rank.level

mutual

/-- Whether the operands of an expression sit at their ranks, its lists are short enough and its names are names. -/
def Expr.respects : Expr → Bool
  | .literal _ _ => true
  | .name x _ => isNameable x
  | .assign x value _ => isNameable x && value.respects
  | .binary op left right _ =>
    left.sits (operator (.binary op)).1 && decide ((operator (.binary op)).1.level < right.rank.level) &&
      left.respects && right.respects
  | .logical op left right _ =>
    left.sits (operator (.logical op)).1 && decide ((operator (.logical op)).1.level < right.rank.level) &&
      left.respects && right.respects
  | .unary _ operand _ => operand.sits .sign && operand.respects
  | .call callee args _ => callee.sits .access && callee.respects && Expr.allRespect args && args.length ≤ 255
  | .group inner _ => inner.respects
  | .array items _ => Expr.allRespect items
  | .property object x _ => object.sits .access && object.respects && isPlain x
  | .element object index _ => object.sits .access && object.respects && index.respects
  | .setProperty object x value _ => object.sits .access && object.respects && isPlain x && value.respects
  | .setElement object index value _ =>
    object.sits .access && object.respects && index.respects && value.respects

def Expr.allRespect : List Expr → Bool
  | [] => true
  | e :: es => e.respects && Expr.allRespect es

end

/-- Whether an expression is the assignment of a variable. -/
def Expr.isAssign : Expr → Bool
  | .assign _ _ _ => true
  | _ => false

/-- Whether tokens begin with none of the words for output and input. -/
def isUnworded (ts : List Token) : Bool :=
  ts.head?.all fun t => t.kind != .print && t.kind != .printLine && t.kind != .input

/-- Whether an `else` behind a statement would belong to it. -/
def Stmt.ending : Stmt → Ending
  | .branch _ _ none _ => .dangling
  | .branch _ _ (some no) _ => no.ending
  | .loop _ body _ => body.ending
  | _ => .closed

def Stmt.isFunction : Stmt → Bool
  | .function _ _ _ _ => true
  | _ => false

mutual

/-- Whether a statement has a spelling: its expressions do, an expression statement is not the assignment of a variable,
no statement but those for output and input begins with one of their words, an `else` finds its `if`, and functions are
declared only where declarations stand. -/
def Stmt.respects : Stmt → Bool
  | .expr e _ => !e.isAssign && isUnworded e.tokens && e.respects
  | .print e _ _ => e.respects
  | .input keyword prompt _ => wordKind keyword == .input && prompt.all Expr.respects
  | .assign x value _ => isPlain x && value.respects
  | .block body _ => Stmt.allRespect body
  | .branch condition yes none _ => condition.respects && yes.respects && !yes.isFunction
  | .branch condition yes (some no) _ =>
    condition.respects && yes.respects && !yes.isFunction && yes.ending == .closed && no.respects && !no.isFunction
  | .loop condition body _ => condition.respects && body.respects && !body.isFunction
  | .function x params body _ => isPlain x && params.all isPlain && params.length ≤ 255 && Stmt.allRespect body
  | .leave value _ => value.all Expr.respects

def Stmt.allRespect : List Stmt → Bool
  | [] => true
  | s :: ss => s.respects && Stmt.allRespect ss

end

namespace Grammar

/-! ## Tokens wherever they stand -/

section Written

variable {ts ps qs : List Token} {k : TokenKind} {x : String}

/-- The tokens `ts` of a text are the tokens `ps`, wherever they stand in it. -/
def Written (ts ps : List Token) : Prop := ts.map Token.bare = ps

theorem Written.nil (h : Written ts []) : ts = [] := List.map_eq_nil_iff.1 h

theorem Written.append (h : Written ts (ps ++ qs)) : ∃ us vs, ts = us ++ vs ∧ Written us ps ∧ Written vs qs :=
  List.map_eq_append_iff.1 h

theorem Written.cons {p : Token} (h : Written ts (p :: ps)) : ∃ t us, ts = t :: us ∧ t.bare = p ∧ Written us ps :=
  List.map_eq_cons_iff.1 h

theorem Written.sign (h : Written ts (fixed k :: ps)) : ∃ t us, ts = t :: us ∧ t.kind = k ∧ Written us ps := by
  obtain ⟨t, us, rfl, ht, hus⟩ := h.cons
  exact ⟨t, us, rfl, congrArg Token.kind ht, hus⟩

theorem Written.named (h : Written ts (word x :: ps)) :
    ∃ t us, ts = t :: us ∧ t.kind = wordKind x ∧ t.lexeme = x ∧ Written us ps := by
  obtain ⟨t, us, rfl, ht, hus⟩ := h.cons
  exact ⟨t, us, rfl, congrArg Token.kind ht, congrArg Token.lexeme ht, hus⟩

/-- A token behind tokens, with more behind it. -/
theorem Written.between (h : Written ts (ps ++ fixed k :: qs)) :
    ∃ us t vs, ts = us ++ t :: vs ∧ Written us ps ∧ t.kind = k ∧ Written vs qs := by
  obtain ⟨us, ws, rfl, hus, hws⟩ := h.append
  obtain ⟨t, vs, rfl, ht, hvs⟩ := hws.sign
  exact ⟨us, t, vs, rfl, hus, ht, hvs⟩

/-- A last token behind tokens. -/
theorem Written.last (h : Written ts (ps ++ [fixed k])) : ∃ us t, ts = us ++ [t] ∧ Written us ps ∧ t.kind = k := by
  obtain ⟨us, t, vs, rfl, hus, ht, hvs⟩ := h.between
  obtain rfl := hvs.nil
  exact ⟨us, t, rfl, hus, ht⟩

end Written

/-! ## Parts of expressions -/

theorem joins_operator (j : Joint) : Joins (operator j).1 (operator j).2 j := by
  rcases j with op | op <;> cases op <;> constructor

theorem signs_signToken (op : UnaryOp) : Signs (signToken op) op := by
  cases op <;> constructor

theorem isName_of_isNameable {x : String} (h : isNameable x = true) : IsName (wordKind x) := by
  simp only [isNameable, Bool.or_eq_true, beq_iff_eq] at h
  rcases h with ((h | h) | h) | h <;> rw [h] <;> constructor

theorem denotes_literalToken {t : Token} : ∀ (value : Literal), t.bare = literalToken value → Denotes t value
  | .null, h => .null (congrArg Token.kind h)
  | .boolean true, h => .true (congrArg Token.kind h)
  | .boolean false, h => .false (congrArg Token.kind h)
  | .number _, h => .number (.inl (congrArg Token.kind h)) (congrArg Token.payload h)
  | .text _, h => .text (.inr (congrArg Token.kind h)) (congrArg Token.payload h)

/-- Every rank but the tightest has a next one. -/
theorem Rank.next_of_lt {r p : Rank} (h : r.level < p.level) : ∃ q, r.Next q ∧ q.level ≤ p.level := by
  have hr : r ≠ .operand := by
    rintro rfl
    cases p <;> simp [Rank.level] at h
  have hq : ∃ q, r.Next q := by
    cases r
    case operand => exact absurd rfl hr
    all_goals exact ⟨_, by constructor⟩
  obtain ⟨q, hq⟩ := hq
  exact ⟨q, hq, by rw [hq.level_eq]; exact h⟩

theorem Rank.eq_of_level {r p : Rank} (h : r.level = p.level) : r = p := by
  cases r <;> cases p <;> simp [Rank.level] at h ⊢

/-- What is spelled at a rank is spelled at every looser one. -/
theorem Spells.loosen {r p : Rank} {ts : List Token} {e : Expr} (h : Spells p ts e) (hr : r.level ≤ p.level) :
    Spells r ts e := by
  -- By induction on the number of ranks between the two.
  obtain ⟨d, hd⟩ := Nat.exists_eq_add_of_le hr
  induction d generalizing r with
  | zero =>
    obtain rfl := Rank.eq_of_level (r := r) (p := p) (by omega)
    exact h
  | succ d ih =>
    obtain ⟨q, hq, hqp⟩ := Rank.next_of_lt (r := r) (p := p) (by omega)
    exact .next hq (ih hqp (by rw [hq.level_eq]; omega))

/-- Operands joined by their operator: the left one may be of its rank, the right one has to be tighter. -/
theorem spells_joined {j : Joint} {p q : Rank} {ls rs : List Token} {t : Token} {left right : Expr} (span : Span)
    (ht : t.kind = (operator j).2) (hl : Spells p ls left) (hp : (operator j).1.level ≤ p.level)
    (hr : Spells q rs right) (hq : (operator j).1.level < q.level) :
    Spells (operator j).1 (ls ++ t :: rs) (j.node left right span) := by
  obtain ⟨r, hn, hrq⟩ := Rank.next_of_lt hq
  have hj : Joins (operator j).1 t.kind j := ht ▸ joins_operator j
  exact .join span hj hn (hl.loosen hp) (hr.loosen hrq)

theorem spells_word {t : Token} {x : String} (span : Span) (hk : t.kind = wordKind x) (hx : t.lexeme = x)
    (h : isNameable x = true) : Spells .operand [t] (.name x span) := by
  subst hx
  exact .name span (hk ▸ isName_of_isNameable h)

theorem spells_assign {t equals : Token} {vs : List Token} {x : String} {value : Expr} {q : Rank} (span : Span)
    (hk : t.kind = wordKind x) (hx : t.lexeme = x) (h : isNameable x = true) (he : equals.kind = .equal)
    (hv : Spells q vs value) : Spells .assignment (t :: equals :: vs) (.assign x value span) := by
  have ht : Spells .access [t] (.name x span) := (spells_word span hk hx h).loosen (by decide)
  have := Spells.assign span ht he (hv.loosen (Nat.zero_le _))
  exact this

theorem spells_property {ts us : List Token} {object : Expr} {x : String} (span : Span)
    (h : Spells .access ts object) (hus : Written us [fixed .dot, word x]) (hx : isPlain x = true) :
    Spells .access (ts ++ us) (.property object x span) := by
  obtain ⟨dot, vs, rfl, hdot, hvs⟩ := hus.sign
  obtain ⟨name, none, rfl, hk, rfl, hnone⟩ := hvs.named
  obtain rfl := hnone.nil
  exact .property span h hdot (hk.trans (beq_iff_eq.1 hx))

theorem spells_element {ts us : List Token} {object index : Expr} {q : Rank} {ps : List Token} (span : Span)
    (h : Spells .access ts object) (hus : Written us (fixed .leftBracket :: (ps ++ [fixed .rightBracket])))
    (hi : ∀ {vs}, Written vs ps → Spells q vs index) : Spells .access (ts ++ us) (.element object index span) := by
  obtain ⟨opened, us, rfl, ho, hus⟩ := hus.sign
  obtain ⟨vs, closed, rfl, hvs, hc⟩ := hus.last
  exact .element span h ho ((hi hvs).loosen (Nat.zero_le _)) hc

theorem spellsList_of_some {ts : List Token} {es : List Expr} (hw : Written ts (Expr.listTokens es))
    (h : es ≠ [] → SpellsSome ts es) : SpellsList ts es := by
  cases es with
  | nil =>
    obtain rfl := hw.nil
    exact .none
  | cons e es => exact .some (h (List.cons_ne_nil e es))

end Grammar

/-! ## Expressions -/

mutual

/-- The tokens of an expression that respects the grammar spell it. -/
theorem Expr.spells : ∀ (e : Expr) {ts : List Token}, e.respects = true → Written ts e.tokens → Spells e.rank ts e
  | .literal value span, ts, _, hw => by
    obtain ⟨t, us, rfl, ht, hus⟩ := hw.cons
    obtain rfl := hus.nil
    exact .literal span (denotes_literalToken value ht)
  | .name x span, ts, h, hw => by
    obtain ⟨t, us, rfl, hk, hx, hus⟩ := hw.named
    obtain rfl := hus.nil
    exact spells_word span hk hx h
  | .assign x value span, ts, h, hw => by
    simp only [Expr.respects, Bool.and_eq_true] at h
    obtain ⟨hname, hvalue⟩ := h
    obtain ⟨t, us, rfl, hk, hx, hus⟩ := hw.named
    obtain ⟨equals, vs, rfl, he, hvs⟩ := hus.sign
    exact spells_assign span hk hx hname he (value.spells hvalue hvs)
  | .binary op left right span, ts, h, hw => by
    simp only [Expr.respects, Expr.sits, Bool.and_eq_true, decide_eq_true_eq] at h
    obtain ⟨⟨⟨hsits, htighter⟩, hleft⟩, hright⟩ := h
    obtain ⟨ls, t, rs, rfl, hls, ht, hrs⟩ := hw.between
    exact spells_joined (j := .binary op) span ht (left.spells hleft hls) hsits (right.spells hright hrs) htighter
  | .logical op left right span, ts, h, hw => by
    simp only [Expr.respects, Expr.sits, Bool.and_eq_true, decide_eq_true_eq] at h
    obtain ⟨⟨⟨hsits, htighter⟩, hleft⟩, hright⟩ := h
    obtain ⟨ls, t, rs, rfl, hls, ht, hrs⟩ := hw.between
    exact spells_joined (j := .logical op) span ht (left.spells hleft hls) hsits (right.spells hright hrs) htighter
  | .unary op operand span, ts, h, hw => by
    simp only [Expr.respects, Expr.sits, Bool.and_eq_true, decide_eq_true_eq] at h
    obtain ⟨hsits, hoperand⟩ := h
    obtain ⟨t, us, rfl, ht, hus⟩ := hw.sign
    exact .sign span (ht ▸ signs_signToken op) ((operand.spells hoperand hus).loosen hsits)
  | .call callee args span, ts, h, hw => by
    simp only [Expr.respects, Expr.sits, Bool.and_eq_true, decide_eq_true_eq] at h
    obtain ⟨⟨⟨hsits, hcallee⟩, hargs⟩, hlen⟩ := h
    obtain ⟨cs, opened, us, rfl, hcs, ho, hus⟩ := hw.between
    obtain ⟨vs, closed, rfl, hvs, hc⟩ := hus.last
    have hlist := spellsList_of_some hvs fun hne => Expr.spells_some args hne hargs hvs
    exact .call span ((callee.spells hcallee hcs).loosen hsits) ho hlist hlen hc
  | .group inner span, ts, h, hw => by
    obtain ⟨opened, us, rfl, ho, hus⟩ := hw.sign
    obtain ⟨vs, closed, rfl, hvs, hc⟩ := hus.last
    exact .group span ho ((inner.spells h hvs).loosen (Nat.zero_le _)) hc
  | .array items span, ts, h, hw => by
    obtain ⟨opened, us, rfl, ho, hus⟩ := hw.sign
    obtain ⟨vs, closed, rfl, hvs, hc⟩ := hus.last
    exact .array span ho (spellsList_of_some hvs fun hne => Expr.spells_some items hne h hvs) hc
  | .property object x span, ts, h, hw => by
    simp only [Expr.respects, Expr.sits, Bool.and_eq_true, decide_eq_true_eq] at h
    obtain ⟨⟨hsits, hobject⟩, hplain⟩ := h
    obtain ⟨os, us, rfl, hos, hus⟩ := hw.append
    exact spells_property span ((object.spells hobject hos).loosen hsits) hus hplain
  | .element object index span, ts, h, hw => by
    simp only [Expr.respects, Expr.sits, Bool.and_eq_true, decide_eq_true_eq] at h
    obtain ⟨⟨hsits, hobject⟩, hindex⟩ := h
    obtain ⟨os, us, rfl, hos, hus⟩ := hw.append
    exact spells_element span ((object.spells hobject hos).loosen hsits) hus (index.spells hindex)
  | .setProperty object x value span, ts, h, hw => by
    simp only [Expr.respects, Expr.sits, Bool.and_eq_true, decide_eq_true_eq] at h
    obtain ⟨⟨⟨hsits, hobject⟩, hplain⟩, hvalue⟩ := h
    obtain ⟨ps, equals, vs, rfl, hps, he, hvs⟩ := hw.between
    obtain ⟨os, us, rfl, hos, hus⟩ := hps.append
    have ht := spells_property span ((object.spells hobject hos).loosen hsits) hus hplain
    exact .setProperty span ht he ((value.spells hvalue hvs).loosen (Nat.zero_le _))
  | .setElement object index value span, ts, h, hw => by
    simp only [Expr.respects, Expr.sits, Bool.and_eq_true, decide_eq_true_eq] at h
    obtain ⟨⟨⟨hsits, hobject⟩, hindex⟩, hvalue⟩ := h
    obtain ⟨ps, equals, vs, rfl, hps, he, hvs⟩ := hw.between
    obtain ⟨os, us, rfl, hos, hus⟩ := hps.append
    have ht := spells_element span ((object.spells hobject hos).loosen hsits) hus (index.spells hindex)
    exact .setElement span ht he ((value.spells hvalue hvs).loosen (Nat.zero_le _))

theorem Expr.spells_some : ∀ (es : List Expr) {ts : List Token}, es ≠ [] → Expr.allRespect es = true →
    Written ts (Expr.listTokens es) → SpellsSome ts es
  | [], _, hne, _, _ => absurd rfl hne
  | [e], ts, _, h, hw => by
    simp only [Expr.allRespect, Bool.and_true] at h
    exact .one ((e.spells h hw).loosen (Nat.zero_le _))
  | e :: e' :: es, ts, _, h, hw => by
    rw [Expr.allRespect, Bool.and_eq_true] at h
    obtain ⟨us, comma, vs, rfl, hus, hc, hvs⟩ := hw.between
    have hes := Expr.spells_some (e' :: es) (List.cons_ne_nil _ _) h.2 hvs
    exact .more ((e.spells h.1 hus).loosen (Nat.zero_le _)) hc hes

end

/-! ## Parts of statements -/

namespace Grammar

variable {ts ps : List Token}

theorem spells_whole {e : Expr} (h : e.respects = true) (hw : Written ts e.tokens) : Spells .assignment ts e :=
  (e.spells h hw).loosen (Nat.zero_le _)

theorem spellsOption_of_written : ∀ {e : Option Expr}, e.all Expr.respects = true →
    Written ts (Expr.optionTokens e) → SpellsOption ts e
  | none, _, hw => by
    obtain rfl := hw.nil
    exact .none
  | some _, h, hw => .some (spells_whole h hw)

theorem names_of_written : ∀ (xs : List String) {ts : List Token}, xs.all isPlain = true → Written ts (nameTokens xs) →
    (ts = [] ∧ xs = []) ∨ Names ts xs
  | [], _, _, hw => .inl ⟨hw.nil, rfl⟩
  | [x], ts, h, hw => by
    simp only [List.all_cons, List.all_nil, Bool.and_true] at h
    obtain ⟨t, none, rfl, hk, rfl, hnone⟩ := hw.named
    obtain rfl := hnone.nil
    exact .inr (.one (hk.trans (beq_iff_eq.1 h)))
  | x :: x' :: xs, ts, h, hw => by
    rw [List.all_cons, Bool.and_eq_true] at h
    obtain ⟨t, us, rfl, hk, rfl, hus⟩ := hw.named
    obtain ⟨comma, vs, rfl, hc, hvs⟩ := hus.sign
    rcases names_of_written (x' :: xs) h.2 hvs with ⟨-, hnil⟩ | hxs
    · cases hnil
    · exact .inr (.more (hk.trans (beq_iff_eq.1 h.1)) hc hxs)

theorem unworded_of_written (h : isUnworded ps = true) (hw : Written ts ps) : Unworded ts := by
  intro t ht
  have hp : t.bare ∈ ps.head? := by
    rw [← show ts.map Token.bare = ps from hw, List.head?_map]
    exact Option.mem_map_of_mem Token.bare ht
  have := Option.all_eq_true _ _ |>.1 h t.bare hp
  simpa [Token.bare, and_assoc] using this

theorem effect_of_not_assign {e : Expr} (span : Span) (h : e.isAssign = false) : Effect e (.expr e span) :=
  .expr span fun x value s he => by simp [he, Expr.isAssign] at h

/-- The head of a branch or a loop: a word and a condition in parentheses. -/
theorem head_of_written {k : TokenKind} {condition : Expr} {qs : List Token} (h : condition.respects = true)
    (hw : Written ts (fixed k :: fixed .leftParen :: (condition.tokens ++ fixed .rightParen :: qs))) :
    ∃ word opened us closed vs, ts = word :: opened :: (us ++ closed :: vs) ∧ word.kind = k ∧
      opened.kind = .leftParen ∧ Spells .assignment us condition ∧ closed.kind = .rightParen ∧ Written vs qs := by
  obtain ⟨word, us, rfl, hk, hus⟩ := hw.sign
  obtain ⟨opened, vs, rfl, ho, hvs⟩ := hus.sign
  obtain ⟨cs, closed, rest, rfl, hcs, hc, hrest⟩ := hvs.between
  exact ⟨word, opened, cs, closed, rest, rfl, hk, ho, spells_whole h hcs, hc, hrest⟩

/-- The end of the statements for output and input. -/
theorem end_of_written (hw : Written ts (ps ++ [fixed .rightParen, fixed .semicolon])) :
    ∃ us closed close, ts = us ++ [closed, close] ∧ Written us ps ∧ closed.kind = .rightParen ∧
      close.kind = .semicolon := by
  obtain ⟨us, closed, vs, rfl, hus, hc, hvs⟩ := hw.between
  obtain ⟨close, none, rfl, hk, hnone⟩ := hvs.sign
  obtain rfl := hnone.nil
  exact ⟨us, closed, close, rfl, hus, hc, hk⟩

/-- The tokens spell a statement where declarations stand, and where statements do unless it is a function. -/
structure Told (ts : List Token) (s : Stmt) : Prop where
  declares : Declares ts s
  sentence : s.isFunction = false → Sentence s.ending ts s

theorem Told.of_sentence {s : Stmt} (h : Sentence s.ending ts s) : Told ts s := ⟨.statement h, fun _ => h⟩

end Grammar

/-! ## Statements -/

mutual

/-- The tokens of a statement that respects the grammar spell it. -/
theorem Stmt.told : ∀ (s : Stmt) {ts : List Token}, s.respects = true → Written ts s.tokens → Told ts s
  | .expr e span, ts, h, hw => by
    simp only [Stmt.respects, Bool.and_eq_true, Bool.not_eq_true'] at h
    obtain ⟨⟨hassign, hunworded⟩, he⟩ := h
    obtain ⟨us, close, rfl, hus, hk⟩ := hw.last
    have hu : Unworded us := unworded_of_written hunworded hus
    exact .of_sentence (.effect (spells_whole he hus) (effect_of_not_assign span hassign) hu hk)
  | .print e newline span, ts, h, hw => by
    obtain ⟨word, us, rfl, hword, hus⟩ := hw.sign
    obtain ⟨opened, vs, rfl, ho, hvs⟩ := hus.sign
    obtain ⟨es, closed, close, rfl, hes, hc, hk⟩ := end_of_written hvs
    cases newline with
    | true => exact .of_sentence (.printLine span hword ho (spells_whole h hes) hc hk)
    | false => exact .of_sentence (.print span hword ho (spells_whole h hes) hc hk)
  | .input keyword prompt span, ts, h, hw => by
    simp only [Stmt.respects, Bool.and_eq_true, beq_iff_eq] at h
    obtain ⟨word, us, rfl, hword, rfl, hus⟩ := hw.named
    obtain ⟨opened, vs, rfl, ho, hvs⟩ := hus.sign
    obtain ⟨es, closed, close, rfl, hes, hc, hk⟩ := end_of_written hvs
    exact .of_sentence (.input span (hword.trans h.1) ho (spellsOption_of_written h.2 hes) hc hk)
  | .assign x value span, ts, h, hw => by
    simp only [Stmt.respects, isPlain, Bool.and_eq_true, beq_iff_eq] at h
    obtain ⟨hplain, hvalue⟩ := h
    obtain ⟨t, us, rfl, ht, hx, hus⟩ := hw.named
    obtain ⟨equals, vs, rfl, he, hvs⟩ := hus.sign
    obtain ⟨es, close, rfl, hes, hk⟩ := hvs.last
    have hassign := spells_assign span ht hx (by simp [isNameable, hplain]) he (value.spells hvalue hes)
    -- A plain name is none of the words for output and input.
    have hu : Unworded (t :: equals :: es) := by
      intro t' ht'
      obtain rfl : t = t' := by simpa using ht'
      simp [ht, hplain]
    have := Sentence.effect hassign (.assign x value span span) hu hk
    exact .of_sentence this
  | .block body span, ts, h, hw => by
    obtain ⟨opened, us, rfl, ho, hus⟩ := hw.sign
    obtain ⟨vs, closed, rfl, hvs, hc⟩ := hus.last
    exact .of_sentence (.block span ho (Stmt.told_list body h hvs) hc)
  | .branch condition yes none span, ts, h, hw => by
    simp only [Stmt.respects, Bool.and_eq_true, Bool.not_eq_true'] at h
    obtain ⟨⟨hcond, hyes⟩, hyesf⟩ := h
    obtain ⟨word, opened, us, closed, vs, rfl, hk, ho, hus, hc, hvs⟩ := head_of_written hcond hw
    exact .of_sentence (.branch span hk ho hus hc ((yes.told hyes hvs).sentence hyesf))
  | .branch condition yes (some no) span, ts, h, hw => by
    simp only [Stmt.respects, Bool.and_eq_true, Bool.not_eq_true', beq_iff_eq] at h
    obtain ⟨⟨⟨⟨⟨hcond, hyes⟩, hyesf⟩, hclosed⟩, hno⟩, hnof⟩ := h
    obtain ⟨word, opened, us, closed, vs, rfl, hk, ho, hus, hc, hvs⟩ := head_of_written hcond hw
    obtain ⟨ys, other, ns, rfl, hys, hother, hns⟩ := hvs.between
    have hy := (yes.told hyes hys).sentence hyesf
    rw [hclosed] at hy
    exact .of_sentence (.branchElse span hk ho hus hc hy hother ((no.told hno hns).sentence hnof))
  | .loop condition body span, ts, h, hw => by
    simp only [Stmt.respects, Bool.and_eq_true, Bool.not_eq_true'] at h
    obtain ⟨⟨hcond, hbody⟩, hbodyf⟩ := h
    obtain ⟨word, opened, us, closed, vs, rfl, hk, ho, hus, hc, hvs⟩ := head_of_written hcond hw
    exact .of_sentence (.loop span hk ho hus hc ((body.told hbody hvs).sentence hbodyf))
  | .function x params body span, ts, h, hw => by
    simp only [Stmt.respects, Bool.and_eq_true, decide_eq_true_eq] at h
    obtain ⟨⟨⟨hx, hparams⟩, hlen⟩, hbody⟩ := h
    obtain ⟨word, us, rfl, hword, hus⟩ := hw.sign
    obtain ⟨name, vs, rfl, hname, rfl, hvs⟩ := hus.named
    obtain ⟨opened, ws, rfl, ho, hws⟩ := hvs.sign
    obtain ⟨ns, closed, bs, rfl, hns, hc, hbs⟩ := hws.between
    obtain ⟨brace, cs, rfl, hb, hcs⟩ := hbs.sign
    obtain ⟨ss, close, rfl, hss, hk⟩ := hcs.last
    have hn : name.kind = .identifier := hname.trans (beq_iff_eq.1 hx)
    have hps := names_of_written params hparams hns
    refine ⟨.function span hword hn ho hps hlen hc hb (Stmt.told_list body hbody hss) hk, ?_⟩
    intro hf
    cases hf
  | .leave value span, ts, h, hw => by
    obtain ⟨word, us, rfl, hword, hus⟩ := hw.sign
    obtain ⟨es, close, rfl, hes, hk⟩ := hus.last
    exact .of_sentence (.leave span hword (spellsOption_of_written h hes) hk)

theorem Stmt.told_list : ∀ (ss : List Stmt) {ts : List Token}, Stmt.allRespect ss = true →
    Written ts (Stmt.listTokens ss) → Passage ts ss
  | [], ts, _, hw => by
    obtain rfl := hw.nil
    exact .nil
  | s :: ss, ts, h, hw => by
    rw [Stmt.allRespect, Bool.and_eq_true] at h
    obtain ⟨us, vs, rfl, hus, hvs⟩ := hw.append
    exact .cons (s.told h.1 hus).declares (Stmt.told_list ss h.2 hvs)

end

namespace Grammar

/-- **Parsing undoes rendering**: the tokens of a program that respects the grammar, wherever they stand in a text, are
parsed to that program modulo spans. -/
theorem parse_render (program : Program) (h : Stmt.allRespect program = true) {ts : List Token}
    (hts : ts.map Token.bare = Stmt.listTokens program) {eof : Token} (he : eof.isEof = true) (rest : List Token) :
    ∃ program', parse (ts ++ eof :: rest) = .ok program' ∧ Stmt.bares program' = Stmt.bares program :=
  parse_of_passage (Stmt.told_list program h hts) he

/-- `function f(a, b) { return a - b - "c"; }` and `while (a) if (f(a, b)) a.b[print] = c = !b; else { scan(); }`. -/
def respectful : Program :=
  let name (x : String) : Expr := .name x .blank
  [.function "f" ["a", "b"]
      [.leave (some (.binary .subtract (.binary .subtract (name "a") (name "b") .blank) (.literal (.text "c") .blank)
        .blank)) .blank]
      .blank,
    .loop (name "a")
      (.branch (.call (name "f") [name "a", name "b"] .blank)
        (.expr (.setElement (.property (name "a") "b" .blank) (name "print")
          (.assign "c" (.unary .not (name "b") .blank) .blank) .blank) .blank)
        (some (.block [.input "scan" none .blank] .blank)) .blank) .blank]

/-- Its tokens on the third line of a text. -/
def respectfulTokens : List Token :=
  (Stmt.listTokens respectful).map fun t => { t with span := ⟨0, 0, 3⟩ }

theorem parse_render_respectful :
    ∃ program, parse (respectfulTokens ++ [Token.eof ⟨0, 0, 3⟩]) = .ok program ∧
      Stmt.bares program = Stmt.bares respectful :=
  @parse_render respectful rfl respectfulTokens rfl _ rfl []

end Grammar

end StepScript
