import StepScript.Proofs.Grammar.Phrases

/-!
# The whole grammar is read

A statement, a declaration and a block of the grammar are read as the trees that they spell, modulo spans, wherever
they stand: the one thing that may not stand behind a dangling `if` is an `else`. So a list of tokens that spells a
program is parsed to that program (`parse_of_passage`).
-/

namespace StepScript.Grammar

open Reader

/-! ## Parts of statements -/

section Parts

variable {ts rest : List Token} {t : Token} {e : Expr}

theorem bare_statementOf {s : Stmt} {e' : Expr} (he : Effect e s) (hb : e'.bare = e.bare) (span : Span) :
    (statementOf e' span).bare = s.bare := by
  cases he with
  | assign x value _ _ =>
    obtain ⟨value', s', hv, rfl⟩ := Expr.eq_assign_of_bare hb
    simp only [statementOf, Stmt.bare, hv]
  | expr _ hn =>
    have hs : statementOf e' span = .expr e' span := by
      unfold statementOf
      split
      · rename_i x value s
        obtain ⟨value', s', -, rfl⟩ := Expr.eq_assign_of_bare hb.symm
        exact absurd rfl (hn x value' s')
      · rfl
    rw [hs]
    simp only [Stmt.bare, hb]

theorem gets_expressionStatement {s : Stmt} (h : Spells .assignment ts e) (he : Effect e s)
    (ht : t.kind = .semicolon) :
    Gets expressionStatement (24 * ts.length) (ts ++ [t]) rest fun s' => s'.bare = s.bare := by
  unfold expressionStatement
  refine .read (h.gets (by rw [ht]; rfl)) fun e' hb => ?_
  exact .expect ht (.pure (bare_statementOf he hb _))

theorem gets_optionalUntil {e : Option Expr} (h : SpellsOption ts e) (hg : grip? t.kind = none)
    (hs : startsExpression t.kind = false) :
    Gets (fun n => optionalUntil n t.kind) (24 * ts.length) ts (t :: rest) fun e' =>
      e'.map Expr.bare = e.map Expr.bare := by
  unfold optionalUntil
  cases h with
  | none => exact .sees rfl rfl (.pure rfl)
  | some he =>
    obtain ⟨u, us, rfl, hu, -⟩ := he.starts
    exact .unseen (.of_test hu hs) (.map (he.gets hg) fun e' hb => congrArg some hb)

theorem gets_parameters {xs : List String} (h : Names ts xs) (ht : t.kind ≠ .comma) :
    ∀ {room : Nat}, xs.length ≤ room → Gets (fun _ => parameters room) 0 ts (t :: rest) (· = xs) := by
  induction h with
  | one hk =>
    rintro (_ | room) hl
    · cases hl
    · simp only [parameters]
      exact .expect hk (.skip (.cons ht) (.pure rfl))
  | more hk hc _ ih =>
    rintro (_ | room) hl
    · cases hl
    · simp only [parameters]
      refine .expect hk (.accept hc (.last (ih (Nat.le_of_succ_le_succ hl)) fun xs' hxs => .pure ?_))
      rw [hxs]

theorem gets_forStart {start : Option Stmt} (h : Starts ts start) :
    Gets forStart (24 * ts.length) ts rest fun start' => start'.map Stmt.bare = start.map Stmt.bare := by
  unfold forStart
  cases h with
  | none hk => exact .accept hk (.pure rfl)
  | some he hs hk =>
    refine .skip ?_ (.map ((gets_expressionStatement he hs hk).le ?_) fun s' hb => congrArg some hb)
    · obtain ⟨u, us, rfl, hu, -⟩ := he.starts
      exact .of_test hu rfl
    · simp only [List.length_append]
      omega

/-- A `for` is read as the loop that it stands for. -/
theorem bare_forLoop {start start' : Option Stmt} {condition condition' step step' : Option Expr}
    {body body' turn whole : Stmt} {span keyword : Span} (ht : Turn step body turn) (hc : Condition condition e)
    (ho : Opened start (.loop e turn span) whole) (hstart : start'.map Stmt.bare = start.map Stmt.bare)
    (hcondition : condition'.map Expr.bare = condition.map Expr.bare)
    (hstep : step'.map Expr.bare = step.map Expr.bare) (hbody : body'.bare = body.bare) :
    (forLoop keyword start' condition' step' body').bare = whole.bare := by
  -- the loop inside is the same whether there is a start or not
  have hloop : ∃ loop' : Stmt, loop'.bare = (Stmt.loop e turn span).bare ∧
      forLoop keyword start' condition' step' body' =
        start'.elim loop' fun s => .block [s, loop'] (keyword.through body'.span) := by
    have hcond : (condition'.getD (.literal (.boolean true) keyword)).bare = e.bare := by
      cases hc with
      | always =>
        rw [Option.map_eq_none_iff.1 hcondition]
        rfl
      | given =>
        obtain ⟨e', rfl, he⟩ := Option.map_eq_some_iff.1 hcondition
        exact he
    cases ht with
    | plain =>
      rw [Option.map_eq_none_iff.1 hstep]
      refine ⟨.loop (condition'.getD _) body' (keyword.through body'.span), ?_, by cases start' <;> rfl⟩
      simp only [Stmt.bare, hcond, hbody]
    | step _ _ heffect =>
      obtain ⟨step₁, rfl, hs⟩ := Option.map_eq_some_iff.1 hstep
      refine ⟨.loop (condition'.getD _) (.block [body', statementOf step₁ step₁.span] (keyword.through body'.span))
        (keyword.through body'.span), ?_, by cases start' <;> rfl⟩
      simp only [Stmt.bare, Stmt.bares, hcond, hbody, bare_statementOf heffect hs]
  obtain ⟨loop', hl, heq⟩ := hloop
  rw [heq]
  cases ho with
  | plain =>
    rw [Option.map_eq_none_iff.1 hstart]
    exact hl
  | start =>
    obtain ⟨s', rfl, hs⟩ := Option.map_eq_some_iff.1 hstart
    simp only [Option.elim, Stmt.bare, Stmt.bares, hs, hl]

end Parts

/-! ## Statements -/

/-- What may stand behind a statement. -/
def Ending.Leaves : Ending → List Token → Prop
  | closed, _ => True
  | dangling, rest => Lacks .else rest

theorem Ending.leaves_of_lacks {rest : List Token} (h : Lacks .else rest) : ∀ o : Ending, o.Leaves rest
  | closed => trivial
  | dangling => h

/-- The tokens are read as a statement. -/
def FitsSentence (o : Ending) (ts : List Token) (s : Stmt) : Prop :=
  ∀ rest, o.Leaves rest → Gets statement (24 * ts.length + 1) ts rest fun s' => s'.bare = s.bare

/-- The tokens are read as a declaration. -/
def FitsDeclares (ts : List Token) (s : Stmt) : Prop :=
  ∀ rest, Lacks .else rest → Gets declaration (24 * ts.length + 2) ts rest fun s' => s'.bare = s.bare

/-- The tokens are read as the inside of a block, up to the brace that closes it. -/
def FitsPassage (ts : List Token) (ss : List Stmt) : Prop :=
  ∀ (close : Token) (rest : List Token), close.kind = .rightBrace →
    Gets blockRest (24 * ts.length + 3) (ts ++ [close]) rest fun b => Stmt.bares b.1 = Stmt.bares ss ∧ b.2 = close

/-- The tokens that a statement begins with. -/
def startsSentence (k : TokenKind) : Bool := startsExpression k || (lead? k).isSome

theorem Sentence.starts {o : Ending} {ts : List Token} {s : Stmt} (h : Sentence o ts s) :
    ∃ t us, ts = t :: us ∧ startsSentence t.kind = true := by
  cases h with
  | effect he _ _ _ =>
    obtain ⟨t, us, rfl, hs, -⟩ := he.starts
    exact ⟨t, _, rfl, by rw [startsSentence, hs]; rfl⟩
  | print _ hw | printLine _ hw | input _ hw | block _ hw | branch _ hw | branchElse _ hw | loop _ hw | forLoop _ hw
  | leave _ hw => exact ⟨_, _, rfl, by rw [hw]; rfl⟩

theorem Declares.starts {ts : List Token} {s : Stmt} (h : Declares ts s) :
    ∃ t us, ts = t :: us ∧ (startsSentence t.kind = true ∨ t.kind = .function) := by
  cases h with
  | function _ hw => exact ⟨_, _, rfl, Or.inr hw⟩
  | statement hs =>
    obtain ⟨t, us, rfl, ht⟩ := hs.starts
    exact ⟨t, us, rfl, Or.inl ht⟩

/-- A declaration begins with neither a closing brace nor an `else`. -/
theorem Declares.lacks {ts : List Token} {s : Stmt} (h : Declares ts s) {k : TokenKind}
    (hk : k = .rightBrace ∨ k = .else) (rest : List Token) : Lacks k (ts ++ rest) := by
  obtain ⟨t, us, rfl, ht | ht⟩ := h.starts
  · exact .of_test ht (by rcases hk with rfl | rfl <;> rfl)
  · exact .cons (by rcases hk with rfl | rfl <;> rw [ht] <;> decide)

section Sentences

variable {ts us rest : List Token} {word opened closed close : Token} {e : Expr} {o : Ending}

theorem lead_of_starts : ∀ {k : TokenKind}, startsExpression k = true →
    k ≠ .print ∧ k ≠ .printLine ∧ k ≠ .input → lead? k = none := by
  intro k
  cases k <;> decide

theorem fits_effect {s : Stmt} (h : Spells .assignment ts e) (he : Effect e s) (hu : Unworded ts)
    (hc : close.kind = .semicolon) : FitsSentence .closed (ts ++ [close]) s := by
  intro rest _
  refine .succ ?_
  simp only [statement]
  refine .skipAs (fun t ht => ?_) ((gets_expressionStatement h he hc).le ?_)
  · obtain ⟨u, us, rfl, hs, -⟩ := h.starts
    cases ht
    exact lead_of_starts hs (hu _ rfl)
  · simp only [List.length_append]
    omega

theorem fits_print {newline : Bool} (span : Span) (hw : lead? word.kind = some (.printLead newline))
    (ho : opened.kind = .leftParen) (h : Spells .assignment ts e) (hc : closed.kind = .rightParen)
    (hk : close.kind = .semicolon) :
    FitsSentence .closed (word :: opened :: (ts ++ [closed, close])) (.print e newline span) := by
  intro rest _
  refine .succ ?_
  simp only [statement]
  refine .acceptAs hw ?_
  simp only [printStatement]
  refine .expect ho (.read ((h.gets (by rw [hc]; rfl)).le ?_) fun e' he => ?_)
  · simp only [List.length_append, List.length_cons]
    omega
  · refine .expect hc (.expect hk (.pure ?_))
    simp only [Stmt.bare, he]

theorem fits_input {e : Option Expr} (span : Span) (hw : word.kind = .input) (ho : opened.kind = .leftParen)
    (h : SpellsOption ts e) (hc : closed.kind = .rightParen) (hk : close.kind = .semicolon) :
    FitsSentence .closed (word :: opened :: (ts ++ [closed, close])) (.input word.lexeme e span) := by
  intro rest _
  have hl : lead? word.kind = some .inputLead := by rw [hw]; rfl
  have hg : Gets (fun n => optionalUntil n closed.kind) (24 * ts.length) ts ([closed, close] ++ rest) _ :=
    gets_optionalUntil h (by rw [hc]; rfl) (by rw [hc]; rfl)
  rw [hc] at hg
  refine .succ ?_
  simp only [statement]
  refine .acceptAs hl ?_
  simp only [inputStatement]
  refine .expect ho (.read (hg.le ?_) fun e' he => ?_)
  · simp only [List.length_append, List.length_cons]
    omega
  · refine .expect hc (.expect hk (.pure ?_))
    simp only [Stmt.bare, he]

theorem fits_leave {e : Option Expr} (span : Span) (hw : word.kind = .return) (h : SpellsOption ts e)
    (hk : close.kind = .semicolon) : FitsSentence .closed (word :: (ts ++ [close])) (.leave e span) := by
  intro rest _
  have hl : lead? word.kind = some .returnLead := by rw [hw]; rfl
  have hg : Gets (fun n => optionalUntil n close.kind) (24 * ts.length) ts ([close] ++ rest) _ :=
    gets_optionalUntil h (by rw [hk]; rfl) (by rw [hk]; rfl)
  rw [hk] at hg
  refine .succ ?_
  simp only [statement]
  refine .acceptAs hl ?_
  simp only [returnStatement]
  refine .read (hg.le ?_) fun e' he => .expect hk (.pure ?_)
  · simp only [List.length_append, List.length_cons]
    omega
  · simp only [Stmt.bare, he]

theorem fits_block {body : List Stmt} (span : Span) (ho : opened.kind = .leftBrace) (h : FitsPassage ts body)
    (hc : closed.kind = .rightBrace) : FitsSentence .closed (opened :: (ts ++ [closed])) (.block body span) := by
  intro rest _
  have hl : lead? opened.kind = some .blockLead := by rw [ho]; rfl
  refine .succ ?_
  simp only [statement]
  refine .acceptAs hl (.last ((h closed rest hc).le ?_) fun b hb => .pure ?_)
  · simp only [List.length_append, List.length_cons]
    omega
  · simp only [Stmt.bare, hb.1]

theorem fits_branch {yes : Stmt} (span : Span) (hw : word.kind = .if) (ho : opened.kind = .leftParen)
    (h : Spells .assignment ts e) (hc : closed.kind = .rightParen) (hy : FitsSentence o us yes) :
    FitsSentence .dangling (word :: opened :: (ts ++ closed :: us)) (.branch e yes none span) := by
  intro rest hrest
  have hl : lead? word.kind = some .ifLead := by rw [hw]; rfl
  refine .succ ?_
  simp only [statement]
  refine .acceptAs hl (.expect ho (.read ((h.gets (by rw [hc]; rfl)).le ?_) fun e' he => ?_))
  · simp only [List.length_append, List.length_cons]
    omega
  refine .expect hc (.last ((hy rest (o.leaves_of_lacks hrest)).le ?_) fun yes' hyes => ?_)
  · simp only [List.length_append, List.length_cons]
    omega
  · refine .skip hrest (.pure ?_)
    simp only [Stmt.bare, he, hyes]

theorem fits_branchElse {vs : List Token} {other : Token} {yes no : Stmt} (span : Span) (hw : word.kind = .if)
    (ho : opened.kind = .leftParen) (h : Spells .assignment ts e) (hc : closed.kind = .rightParen)
    (hy : FitsSentence .closed us yes) (hk : other.kind = .else) (hn : FitsSentence o vs no) :
    FitsSentence o (word :: opened :: (ts ++ closed :: (us ++ other :: vs))) (.branch e yes (some no) span) := by
  intro rest hrest
  have hl : lead? word.kind = some .ifLead := by rw [hw]; rfl
  refine .succ ?_
  simp only [statement]
  refine .acceptAs hl (.expect ho (.read ((h.gets (by rw [hc]; rfl)).le ?_) fun e' he => ?_))
  · simp only [List.length_append, List.length_cons]
    omega
  refine .expect hc (.read ((hy _ trivial).le ?_) fun yes' hyes => ?_)
  · simp only [List.length_append, List.length_cons]
    omega
  refine .accept hk (.last ((hn rest hrest).le ?_) fun no' hno => ?_)
  · simp only [List.length_append, List.length_cons]
    omega
  · refine .pure ?_
    simp only [Stmt.bare, he, hyes, hno]

theorem fits_loop {body : Stmt} (span : Span) (hw : word.kind = .while) (ho : opened.kind = .leftParen)
    (h : Spells .assignment ts e) (hc : closed.kind = .rightParen) (hb : FitsSentence o us body) :
    FitsSentence o (word :: opened :: (ts ++ closed :: us)) (.loop e body span) := by
  intro rest hrest
  have hl : lead? word.kind = some .whileLead := by rw [hw]; rfl
  refine .succ ?_
  simp only [statement]
  refine .acceptAs hl (.expect ho (.read ((h.gets (by rw [hc]; rfl)).le ?_) fun e' he => ?_))
  · simp only [List.length_append, List.length_cons]
    omega
  refine .expect hc (.last ((hb rest hrest).le ?_) fun body' hbody => .pure ?_)
  · simp only [List.length_append, List.length_cons]
    omega
  · simp only [Stmt.bare, he, hbody]

theorem fits_forLoop {as cs : List Token} {middle : Token} {start : Option Stmt} {condition step : Option Expr}
    {body turn whole : Stmt} (span : Span) (hw : word.kind = .for) (ho : opened.kind = .leftParen)
    (hs : Starts as start) (hcs : SpellsOption cs condition) (hm : middle.kind = .semicolon)
    (hts : SpellsOption ts step) (hc : closed.kind = .rightParen) (hb : FitsSentence o us body)
    (ht : Turn step body turn) (he : Condition condition e) (hwhole : Opened start (.loop e turn span) whole) :
    FitsSentence o (word :: opened :: (as ++ (cs ++ middle :: (ts ++ closed :: us)))) whole := by
  intro rest hrest
  have hl : lead? word.kind = some .forLead := by rw [hw]; rfl
  have hg₁ : Gets (fun n => optionalUntil n middle.kind) (24 * cs.length) cs
      (middle :: (ts ++ closed :: us) ++ rest) _ := gets_optionalUntil hcs (by rw [hm]; rfl) (by rw [hm]; rfl)
  have hg₂ : Gets (fun n => optionalUntil n closed.kind) (24 * ts.length) ts (closed :: us ++ rest) _ :=
    gets_optionalUntil hts (by rw [hc]; rfl) (by rw [hc]; rfl)
  rw [hm] at hg₁
  rw [hc] at hg₂
  refine .succ ?_
  simp only [statement]
  refine .acceptAs hl (.expect ho (.read ((gets_forStart hs).le ?_) fun start' hstart => ?_))
  · simp only [List.length_append, List.length_cons]
    omega
  refine .read (hg₁.le ?_) fun condition' hcondition => .expect hm (.read (hg₂.le ?_) fun step' hstep => ?_)
  · simp only [List.length_append, List.length_cons]
    omega
  · simp only [List.length_append, List.length_cons]
    omega
  refine .expect hc (.last ((hb rest hrest).le ?_) fun body' hbody => .pure ?_)
  · simp only [List.length_append, List.length_cons]
    omega
  · exact bare_forLoop ht he hwhole hstart hcondition hstep hbody

end Sentences

/-! ## Declarations and blocks -/

section Declarations

variable {ts us : List Token} {s : Stmt} {ss : List Stmt}

theorem fits_statement {o : Ending} (hs : Sentence o ts s) (h : FitsSentence o ts s) : FitsDeclares ts s := by
  intro rest hrest
  refine .succ ?_
  simp only [declaration]
  refine .skip ?_ (h rest (o.leaves_of_lacks hrest))
  obtain ⟨t, vs, rfl, ht⟩ := hs.starts
  exact .of_test ht rfl

theorem fits_function {ps : List Token} {word name opened closed brace close : Token} {params : List String}
    {body : List Stmt} (span : Span) (hw : word.kind = .function) (hn : name.kind = .identifier)
    (ho : opened.kind = .leftParen) (hps : (ps = [] ∧ params = []) ∨ Names ps params) (hl : params.length ≤ 255)
    (hc : closed.kind = .rightParen) (hb : brace.kind = .leftBrace) (h : FitsPassage ts body)
    (hk : close.kind = .rightBrace) :
    FitsDeclares (word :: name :: opened :: (ps ++ closed :: brace :: (ts ++ [close])))
      (.function name.lexeme params body span) := by
  intro rest _
  have tail : Gets (fun n => expect .rightParen .parametersClose >>= fun _ => expect .leftBrace .functionBody >>=
      fun _ => blockRest n >>= fun b => pure (Stmt.function name.lexeme params b.1 (word.span.through b.2.span)))
      (24 * ts.length + 3) (closed :: brace :: (ts ++ [close])) rest
      fun s' => s'.bare = (Stmt.function name.lexeme params body span).bare := by
    refine .expect hc (.expect hb (.last (h close rest hk) fun b hbody => .pure ?_))
    simp only [Stmt.bare, hbody.1]
  refine .succ ?_
  simp only [declaration]
  refine .accept hw (.le (.succ ?_) (Nat.le_refl _))
  simp only [functionDeclaration]
  refine .expect hn (.expect ho ?_)
  rcases hps with ⟨rfl, rfl⟩ | hps
  · refine .sees rfl hc (.le tail ?_)
    simp only [List.length_append, List.length_cons]
    omega
  · refine .unseen ?_ (.read (.le (gets_parameters hps (by rw [hc]; decide) hl) (Nat.zero_le _)) fun params' hp => ?_)
    · cases hps with
      | one hk => exact .cons (by rw [hk]; decide)
      | more hk _ _ => exact .cons (by rw [hk]; decide)
    · rw [hp]
      refine .le tail ?_
      simp only [List.length_append, List.length_cons]
      omega

theorem fitsPassage_nil : FitsPassage [] [] := by
  intro close rest hk
  refine .le (.succ ?_) (Nat.le_refl 3)
  simp only [blockRest]
  exact .accept hk (.pure ⟨rfl, rfl⟩)

/-- What follows a declaration is another one or what stands behind all of them. -/
theorem Passage.lacks_else {rest : List Token} (h : Passage us ss) (hr : Lacks .else rest) :
    Lacks .else (us ++ rest) := by
  cases h with
  | nil => exact hr
  | cons hd _ =>
    rw [List.append_assoc]
    exact hd.lacks (Or.inr rfl) _

theorem fitsPassage_cons (hd : Declares ts s) (h : FitsDeclares ts s) (hp : Passage us ss) (hss : FitsPassage us ss) :
    FitsPassage (ts ++ us) (s :: ss) := by
  intro close rest hk
  have hlen : 0 < ts.length := by
    obtain ⟨t, vs, rfl, -⟩ := hd.starts
    exact Nat.succ_pos _
  refine .succ (N := 24 * (ts ++ us).length + 2) ?_
  simp only [blockRest]
  rw [List.append_assoc]
  refine .skip ?_ (.inside ?_ (.read ((h _ ?_).le ?_) fun s' hs => .last ((hss close rest hk).le ?_) fun b hb => ?_))
  · rw [List.append_assoc]
    exact hd.lacks (Or.inl rfl) _
  · simp
  · rw [List.append_assoc]
    exact hp.lacks_else (.cons (by rw [hk]; decide))
  · simp only [List.length_append]
    omega
  · simp only [List.length_append]
    omega
  · refine .pure ⟨?_, hb.2⟩
    simp only [Stmt.bares, hs, hb.1]

end Declarations

mutual

/-- **A statement is read as the tree that it spells.** -/
theorem Sentence.fits : ∀ {o : Ending} {ts : List Token} {s : Stmt}, Sentence o ts s → FitsSentence o ts s
  | _, _, _, .effect h he hu hc => fits_effect h he hu hc
  | _, _, _, .print span hw ho h hc hk => fits_print span (by rw [hw]; rfl) ho h hc hk
  | _, _, _, .printLine span hw ho h hc hk => fits_print span (by rw [hw]; rfl) ho h hc hk
  | _, _, _, .input span hw ho h hc hk => fits_input span hw ho h hc hk
  | _, _, _, .block span ho h hc => fits_block span ho h.fits hc
  | _, _, _, .branch span hw ho h hc hy => fits_branch span hw ho h hc hy.fits
  | _, _, _, .branchElse span hw ho h hc hy hk hn => fits_branchElse span hw ho h hc hy.fits hk hn.fits
  | _, _, _, .loop span hw ho h hc hb => fits_loop span hw ho h hc hb.fits
  | _, _, _, .forLoop span hw ho hs hcs hm hts hc hb ht he hwhole =>
    fits_forLoop span hw ho hs hcs hm hts hc hb.fits ht he hwhole
  | _, _, _, .leave span hw h hk => fits_leave span hw h hk

theorem Declares.fits : ∀ {ts : List Token} {s : Stmt}, Declares ts s → FitsDeclares ts s
  | _, _, .function span hw hn ho hps hl hc hb h hk => fits_function span hw hn ho hps hl hc hb h.fits hk
  | _, _, .statement h => fits_statement h h.fits

theorem Passage.fits : ∀ {ts : List Token} {ss : List Stmt}, Passage ts ss → FitsPassage ts ss
  | _, _, .nil => fitsPassage_nil
  | _, _, .cons hd hp => fitsPassage_cons hd hd.fits hp hp.fits

end

/-! ## Programs -/

theorem declarations_nil (n : Nat) (done : List Stmt) (turns : Nat) (latest : Option Token) :
    declarations n done turns ⟨latest, []⟩ = .ok done.reverse := by
  cases turns <;> rfl

/-- A declaration that is read is put before the others, and the rest is read behind it. -/
theorem declarations_succ {n : Nat} {c c' : Cursor} {s : Stmt} (hc : c.ahead ≠ []) (h : declaration n c = .done s c')
    (done : List Stmt) (turns : Nat) : declarations n done (turns + 1) c = declarations n (s :: done) turns c' := by
  have hnext : nextDeclaration n c = (.ok s, c') := by
    unfold nextDeclaration
    rw [h]
  have hend : c.atEnd = false := by simpa [Cursor.atEnd] using hc
  rw [declarations, hnext, if_neg (by simp [hend])]

/-- Declarations are read one after the other to the end. -/
theorem declarations_of_passage {n : Nat} : ∀ {ts : List Token} {ss : List Stmt}, Passage ts ss →
    24 * ts.length + 2 ≤ n → ∀ {turns : Nat} (done : List Stmt) (latest : Option Token), ts.length ≤ turns →
    ∃ ss', Stmt.bares ss' = Stmt.bares ss ∧ declarations n done turns ⟨latest, ts⟩ = .ok (done.reverse ++ ss')
  | _, _, .nil, _, turns, done, latest, _ =>
    ⟨[], rfl, by rw [List.append_nil]; exact declarations_nil n done turns latest⟩
  | _, _, @Passage.cons ts us s ss hd hp, hn, turns, done, latest, ht => by
    obtain ⟨t, vs, rfl, -⟩ := hd.starts
    simp only [List.length_append, List.length_cons] at hn ht
    obtain ⟨k, rfl⟩ : ∃ k, turns = k + 1 := ⟨turns - 1, by omega⟩
    have hus : Lacks .else us := by
      have := hp.lacks_else (.nil .else)
      rwa [List.append_nil] at this
    obtain ⟨s', latest', hs, hr⟩ := hd.fits us hus latest
    have hd' := hr n (by simp only [List.length_cons]; omega)
    have ht' : us.length ≤ k := by omega
    obtain ⟨ss', hss, hds⟩ := declarations_of_passage hp (n := n) (by omega) (s' :: done) latest' ht'
    refine ⟨s' :: ss', by rw [Stmt.bares, Stmt.bares, hs, hss], ?_⟩
    rw [declarations_succ (List.cons_ne_nil t (vs ++ us)) hd', hds, List.reverse_cons, List.append_assoc]
    rfl

/-- None of the tokens ends the text. -/
def Inner (ts : List Token) : Prop := ∀ t ∈ ts, t.kind ≠ .eof

section Inner

variable {ts us : List Token} {t : Token}

theorem Inner.nil : Inner [] := nofun

theorem Inner.cons (h : t.kind ≠ .eof) (hs : Inner ts) : Inner (t :: ts) := List.forall_mem_cons.2 ⟨h, hs⟩

theorem Inner.append (h : Inner ts) (h' : Inner us) : Inner (ts ++ us) := List.forall_mem_append.2 ⟨h, h'⟩

theorem Inner.token {k : TokenKind} (hk : t.kind = k) (hs : Inner ts) (h : k ≠ .eof := by decide) :
    Inner (t :: ts) := .cons (hk ▸ h) hs

theorem Joins.ne_eof {r : Rank} {k : TokenKind} {j : Joint} (h : Joins r k j) : k ≠ .eof := by
  cases h <;> nofun

theorem Signs.ne_eof {k : TokenKind} {op : UnaryOp} (h : Signs k op) : k ≠ .eof := by
  cases h <;> nofun

end Inner

mutual

/-- The tokens of a phrase stand before the end of the text. -/
theorem Spells.inner : ∀ {r : Rank} {ts : List Token} {e : Expr}, Spells r ts e → Inner ts
  | _, _, _, .next _ h => h.inner
  | _, _, _, .join _ hj _ hl hr => hl.inner.append (.cons hj.ne_eof hr.inner)
  | _, _, _, .assign _ ht he hv | _, _, _, .setProperty _ ht he hv | _, _, _, .setElement _ ht he hv =>
    ht.inner.append (.token he hv.inner)
  | _, _, _, .sign _ hs h => .cons hs.ne_eof h.inner
  | _, _, _, .call _ h ho ha _ hc => h.inner.append (.token ho (ha.inner.append (.token hc .nil)))
  | _, _, _, .element _ h ho hi hc => h.inner.append (.token ho (hi.inner.append (.token hc .nil)))
  | _, _, _, .property _ h hd hn => h.inner.append (.token hd (.token hn .nil))
  | _, _, _, .literal _ hd => .cons (kind_ne_of_test (starts_of_denotes hd) rfl) .nil
  | _, _, _, .name _ hk => .cons (kind_ne_of_test (starts_of_isName hk) rfl) .nil
  | _, _, _, .group _ ho h hc => .token ho (h.inner.append (.token hc .nil))
  | _, _, _, .array _ ho h hc => .token ho (h.inner.append (.token hc .nil))

theorem SpellsList.inner : ∀ {ts : List Token} {es : List Expr}, SpellsList ts es → Inner ts
  | _, _, .none => .nil
  | _, _, .some h => h.inner

theorem SpellsSome.inner : ∀ {ts : List Token} {es : List Expr}, SpellsSome ts es → Inner ts
  | _, _, .one h => h.inner
  | _, _, .more h hk hes => h.inner.append (.token hk hes.inner)

end

theorem SpellsOption.inner {ts : List Token} {e : Option Expr} (h : SpellsOption ts e) : Inner ts := by
  cases h with
  | none => exact .nil
  | some h => exact h.inner

theorem Starts.inner {ts : List Token} {s : Option Stmt} (h : Starts ts s) : Inner ts := by
  cases h with
  | none hk => exact .token hk .nil
  | some h _ hk => exact h.inner.append (.token hk .nil)

theorem Names.inner {ts : List Token} {xs : List String} (h : Names ts xs) : Inner ts := by
  induction h with
  | one hk => exact .token hk .nil
  | more hk hc _ ih => exact .token hk (.token hc ih)

mutual

theorem Sentence.inner : ∀ {o : Ending} {ts : List Token} {s : Stmt}, Sentence o ts s → Inner ts
  | _, _, _, .effect h _ _ hc => h.inner.append (.token hc .nil)
  | _, _, _, .print _ hw ho h hc hk | _, _, _, .printLine _ hw ho h hc hk | _, _, _, .input _ hw ho h hc hk =>
    .token hw (.token ho (h.inner.append (.token hc (.token hk .nil))))
  | _, _, _, .block _ ho h hc => .token ho (h.inner.append (.token hc .nil))
  | _, _, _, .branch _ hw ho h hc hy => .token hw (.token ho (h.inner.append (.token hc hy.inner)))
  | _, _, _, .branchElse _ hw ho h hc hy hk hn =>
    .token hw (.token ho (h.inner.append (.token hc (hy.inner.append (.token hk hn.inner)))))
  | _, _, _, .loop _ hw ho h hc hb => .token hw (.token ho (h.inner.append (.token hc hb.inner)))
  | _, _, _, .forLoop _ hw ho hs hcs hm hts hc hb _ _ _ =>
    .token hw (.token ho (hs.inner.append (hcs.inner.append (.token hm (hts.inner.append (.token hc hb.inner))))))
  | _, _, _, .leave _ hw h hk => .token hw (h.inner.append (.token hk .nil))

theorem Declares.inner : ∀ {ts : List Token} {s : Stmt}, Declares ts s → Inner ts
  | _, _, .function _ hw hn ho hps _ hc hb h hk => by
    have hps : Inner _ := hps.elim (fun h => h.1 ▸ .nil) Names.inner
    exact .token hw (.token hn (.token ho (hps.append (.token hc (.token hb (h.inner.append (.token hk .nil)))))))
  | _, _, .statement h => h.inner

theorem Passage.inner : ∀ {ts : List Token} {ss : List Stmt}, Passage ts ss → Inner ts
  | _, _, .nil => .nil
  | _, _, .cons hd hp => hd.inner.append hp.inner

end

theorem takeWhile_inner {ts rest : List Token} {eof : Token} (h : Inner ts) (he : eof.isEof = true) :
    (ts ++ eof :: rest).takeWhile (fun t => !t.isEof) = ts := by
  have ht : ∀ t ∈ ts, (!t.isEof) = true := by
    intro t ht
    simpa [Token.isEof] using h t ht
  rw [List.takeWhile_append_of_pos ht]
  simp [he]

/-- **The parser accepts the whole grammar**: tokens that spell a program are parsed to it, modulo spans. -/
theorem parse_of_passage {ts rest : List Token} {eof : Token} {program : Program} (h : Passage ts program)
    (he : eof.isEof = true) :
    ∃ program', parse (ts ++ eof :: rest) = .ok program' ∧ Stmt.bares program' = Stmt.bares program := by
  obtain ⟨ss', hss, hd⟩ := declarations_of_passage h (n := bound ts.length) (by unfold bound; omega) []
    (some (closingToken (ts ++ eof :: rest))) (Nat.le_succ _)
  refine ⟨ss', ?_, hss⟩
  rw [parse, Cursor.ofTokens, takeWhile_inner h.inner he]
  exact hd

end StepScript.Grammar
