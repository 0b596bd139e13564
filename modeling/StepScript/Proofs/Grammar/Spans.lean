import StepScript.Proofs.Grammar.Places
import StepScript.Proofs.Grammar.Recovery
import StepScript.Proofs.Tree.Nodes

/-!
# Spans of the nodes of a program

The tokens of a text stand side by side (`Beyond`), so what a reader takes lies between where it starts and where the
tokens that it leaves begin (`Fill`). Each reader joins the spans of its first token or part and of its last one, and so
its node goes around everything that was read between them. There is one lemma for each reader, by induction on the
bound.

The nodes of a program point into its text, each one lies within the node that it is a part of, and the statements
follow each other (`spans_of_compile`).
-/

namespace StepScript

/-! ## Places in the text -/

/-- The tokens stand behind a position, one after the other. -/
def Beyond (lo : Nat) : List Token → Prop
  | [] => True
  | t :: ts => lo ≤ t.span.start ∧ t.span.start < t.span.stop ∧ Beyond t.span.stop ts

theorem Laid.beyond {front rest : List Char} {tokens : List Token} (h : Laid front rest tokens) :
    Beyond front.length (tokens.takeWhile fun t => !t.isEof) := by
  induction h with
  | finish _ => trivial
  | @token front gap text rest t tokens _ ht _ ih =>
    have hkind : (!t.isEof) = true := by simpa [Token.isEof] using ht.kind
    rw [List.takeWhile_cons, if_pos hkind]
    have htext := List.length_pos_iff.2 ht.nonempty
    simp only [Beyond, ht.span, List.length_append] at ih ⊢
    exact ⟨by omega, by omega, by rwa [Nat.add_assoc]⟩

/-- The tokens of a text stand one after the other. -/
theorem beyond_of_scan {source : String} {tokens : List Token} (h : scan source = .ok tokens) :
    Beyond 0 (tokens.takeWhile fun t => !t.isEof) :=
  (laid_of_scan h).beyond

namespace Node

/-- A nested node between two positions. -/
structure Between (node : Node) (lo hi : Nat) : Prop where
  start : lo ≤ node.span.start
  ordered : node.span.start ≤ node.span.stop
  stop : node.span.stop ≤ hi
  nested : node.Nested

/-- A node that goes inside a span. -/
def Inside (node : Node) (span : Span) : Prop := node.span.Within span ∧ node.Nested

theorem Between.widen {node : Node} {lo hi lo' hi' : Nat} (h : node.Between lo hi) (hl : lo' ≤ lo) (hh : hi ≤ hi') :
    node.Between lo' hi' :=
  ⟨hl.trans h.start, h.ordered, h.stop.trans hh, h.nested⟩

theorem Between.le {node : Node} {lo hi : Nat} (h : node.Between lo hi) : lo ≤ hi :=
  (h.start.trans h.ordered).trans h.stop

/-- Up to its own end. -/
theorem Between.own {node : Node} {lo hi : Nat} (h : node.Between lo hi) : node.Between lo node.span.stop :=
  ⟨h.start, h.ordered, Nat.le_refl _, h.nested⟩

theorem Between.inside {node : Node} {lo hi : Nat} {span : Span} (h : node.Between lo hi) (hl : span.start ≤ lo)
    (hh : hi ≤ span.stop) : node.Inside span :=
  ⟨⟨hl.trans h.start, h.stop.trans hh⟩, h.nested⟩

theorem nested_of_inside {node : Node} (h : ∀ part ∈ node.parts, part.Inside node.span) : node.Nested :=
  .intro (fun part hp => (h part hp).1) fun part hp => (h part hp).2

/-- What goes inside a span does so with its parts. -/
theorem Inside.part {node part : Node} {span : Span} (h : node.Inside span) (hp : part ∈ node.parts) :
    part.Inside span := by
  obtain ⟨hw, hn⟩ := h
  cases hn with
  | intro hwithin hnested =>
    exact ⟨⟨hw.1.trans (hwithin part hp).1, (hwithin part hp).2.trans hw.2⟩, hnested part hp⟩

/-- A node around its parts, from the start of one span to the end of another. -/
theorem between_through {node : Node} {first last : Span} {lo hi : Nat} (h : node.span = first.through last)
    (hl : lo ≤ first.start) (ho : first.start ≤ first.stop) (hm : first.stop ≤ last.stop) (hh : last.stop ≤ hi)
    (hparts : ∀ part ∈ node.parts, part.Inside ⟨first.start, last.stop, first.line⟩) : node.Between lo hi := by
  have hspan : node.span = ⟨first.start, last.stop, first.line⟩ := by
    rw [h, Span.through, Nat.max_eq_left hm]
  refine ⟨?_, ?_, ?_, nested_of_inside (hspan ▸ hparts)⟩ <;> rw [hspan]
  · exact hl
  · exact ho.trans hm
  · exact hh

end Node

/-- What is read lies between the position where reading starts and one that the tokens left are beyond. -/
def Fill (lo : Nat) (nodes : List Node) (rest : List Token) : Prop :=
  ∃ hi, lo ≤ hi ∧ Beyond hi rest ∧ ∀ node ∈ nodes, node.Between lo hi

theorem fill_nil {lo : Nat} {rest : List Token} (h : Beyond lo rest) : Fill lo [] rest :=
  ⟨lo, Nat.le_refl lo, h, List.forall_mem_nil _⟩

theorem fill_one {lo hi : Nat} {node : Node} {rest : List Token} (h : node.Between lo hi) (hr : Beyond hi rest) :
    Fill lo [node] rest :=
  ⟨hi, h.le, hr, List.forall_mem_singleton.2 h⟩

theorem Fill.low {lo lo' : Nat} {nodes : List Node} {rest : List Token} (h : Fill lo' nodes rest) (hl : lo ≤ lo') :
    Fill lo nodes rest := by
  obtain ⟨hi, hh, hr, hn⟩ := h
  exact ⟨hi, hl.trans hh, hr, fun node hm => (hn node hm).widen hl (Nat.le_refl hi)⟩

/-- More behind what is read. -/
theorem Fill.more {lo mid hi : Nat} {node : Node} {nodes : List Node} {rest : List Token} (h : node.Between lo mid)
    (hm : mid ≤ hi) (hr : Fill hi nodes rest) : Fill lo (node :: nodes) rest := by
  obtain ⟨top, ht, hrest, hn⟩ := hr
  have hlo := h.le
  refine ⟨top, by omega, hrest, List.forall_mem_cons.2 ⟨h.widen (Nat.le_refl lo) (hm.trans ht), fun node hmem => ?_⟩⟩
  exact (hn node hmem).widen (hlo.trans hm) (Nat.le_refl top)

theorem Fill.one {lo : Nat} {node : Node} {rest : List Token} (h : Fill lo [node] rest) :
    ∃ hi, node.Between lo hi ∧ Beyond hi rest := by
  obtain ⟨hi, -, hr, hn⟩ := h
  exact ⟨hi, hn node (List.mem_singleton_self node), hr⟩

namespace Grammar

open Reader

/-! ## Expressions -/

section Expressions

/-- What the readers of expressions do with a bound `n`, from a position on. -/
structure ExpressionsFill (n : Nat) : Prop where
  expression : ∀ {lo ts}, Beyond lo ts → Reads ts (expression n) fun _ e rest => Fill lo [.expr e] rest
  tier : ∀ t {lo ts}, Beyond lo ts → Reads ts (tier n t) fun _ e rest => Fill lo [.expr e] rest
  operand : ∀ t {lo ts}, Beyond lo ts → Reads ts (operand n t) fun _ e rest => Fill lo [.expr e] rest
  tierRest : ∀ t {lo hi ts left}, (Node.expr left).Between lo hi → Beyond hi ts →
    Reads ts (tierRest n t left) fun _ e rest => Fill lo [.expr e] rest
  signed : ∀ {lo ts}, Beyond lo ts → Reads ts (signed n) fun _ e rest => Fill lo [.expr e] rest
  suffixes : ∀ {lo hi ts first}, (Node.expr first).Between lo hi → Beyond hi ts →
    Reads ts (suffixes n first) fun _ e rest => Fill lo [.expr e] rest
  listUntil : ∀ close room {lo ts}, Beyond lo ts →
    Reads ts (listUntil n close room) fun _ es rest => Fill lo (es.map .expr) rest
  list : ∀ room {lo ts}, Beyond lo ts → Reads ts (list n room) fun _ es rest => Fill lo (es.map .expr) rest
  primary : ∀ {lo ts}, Beyond lo ts → Reads ts (primary n) fun _ e rest => Fill lo [.expr e] rest

variable {n lo hi : Nat} {ts : List Token}

/-- A node from an expression to the end of a span, around the nodes read between. Its parts are the expression, or the
parts of that, and these nodes. -/
theorem between_from {node : Node} {e : Expr} {last : Span} {nodes : List Node} {mid top : Nat}
    (he : (Node.expr e).Between lo hi) (hm : hi ≤ mid) (hn : ∀ node ∈ nodes, node.Between mid last.stop)
    (hl : mid ≤ last.stop) (ht : last.stop ≤ top) (hs : node.span = e.span.through last)
    (hp : ∀ part ∈ node.parts, part = .expr e ∨ part ∈ (Node.expr e).parts ∨ part ∈ nodes) : node.Between lo top := by
  have hstop : e.span.stop ≤ mid := he.stop.trans hm
  have hfirst : (Node.expr e).Inside ⟨e.span.start, last.stop, e.span.line⟩ :=
    ⟨⟨Nat.le_refl _, hstop.trans hl⟩, he.nested⟩
  refine Node.between_through hs he.start he.ordered (hstop.trans hl) ht fun part hpart => ?_
  rcases hp part hpart with rfl | hpart | hpart
  · exact hfirst
  · exact hfirst.part hpart
  · exact (hn part hpart).inside (he.ordered.trans hstop) (Nat.le_refl _)

theorem fill_assignTo {target value : Expr} {equals : Token} {mid top : Nat} (ht : (Node.expr target).Between lo hi)
    (hm : hi ≤ mid) (hv : (Node.expr value).Between mid top) (hts : Beyond top ts) :
    Reads ts (assignTo target equals value) fun _ e rest => Fill lo [.expr e] rest := by
  unfold assignTo
  split
  case h_4 => exact .faultAt
  all_goals
    refine .pure (fill_one (between_from ht hm (List.forall_mem_singleton.2 hv.own) (hv.start.trans hv.ordered) hv.stop
      rfl fun part hpart => ?_) hts)
    simp only [Node.parts, Expr.parts, List.map_cons, List.map_nil, List.mem_cons, List.not_mem_nil] at hpart ⊢
    tauto

/-- A node from one token to another, around what was read between. -/
theorem between_tokens {node : Node} {opened close : Token} {mid : Nat} (hl : lo ≤ opened.span.start)
    (ho : opened.span.start < opened.span.stop) (hp : ∀ part ∈ node.parts, part.Between opened.span.stop mid)
    (hm : opened.span.stop ≤ mid) (hc : mid ≤ close.span.start) (hc' : close.span.start < close.span.stop)
    (hs : node.span = opened.span.through close.span) : node.Between lo close.span.stop := by
  have hclose : mid ≤ close.span.stop := by omega
  refine Node.between_through hs hl (by omega) (by omega) (Nat.le_refl _) fun part hpart => ?_
  exact (hp part hpart).inside (Nat.le_of_lt ho) hclose

/-- A token that is an operand by itself. -/
theorem between_opening {t : Token} {e : Expr} (h : opening t = .whole e) (hl : lo ≤ t.span.start)
    (ho : t.span.start < t.span.stop) : (Node.expr e).Between lo t.span.stop := by
  have hleaf : e.span = t.span ∧ e.parts = [] := by
    unfold opening at h
    split at h <;> try split at h
    all_goals cases h
    all_goals exact ⟨rfl, rfl⟩
  have hspan : (Node.expr e).span = t.span := hleaf.1
  refine ⟨by rwa [hspan], by rw [hspan]; omega, by rw [hspan], Node.nested_of_inside ?_⟩
  rw [Node.parts, hleaf.2]
  exact List.forall_mem_nil _

theorem fill_takeOpening : Reads ts takeOpening fun used o rest =>
    used = [o.2] ∧ ts = o.2 :: rest ∧ (∀ e, o.1 = .whole e → opening o.2 = .whole e) where
  done {c c' o} hc hr := by
    unfold takeOpening at hr
    split at hr
    · cases hr
    · rename_i t us ha
      split at hr
      · cases hr
      · cases hr
        exact ⟨[t], hc ▸ ha, rfl, hc ▸ ha, fun e he => he⟩
  failed hc hr := reads_takeOpening.failed hc hr

section Step

variable (ih : ExpressionsFill n)
include ih

theorem fill_expression (h : Beyond lo ts) :
    Reads ts (expression (n + 1)) fun _ e rest => Fill lo [.expr e] rest := by
  rw [expression]
  refine .bind (ih.tier .or h) fun us target rest _ htarget => ?_
  obtain ⟨hi, ht, hrest⟩ := htarget.one
  refine .accept_bind (fun _ => .pure (fill_one ht hrest)) fun equals rest' hr _ => ?_
  subst hr
  obtain ⟨hl, ho, hrest⟩ := hrest
  refine .bind (ih.expression hrest) fun vs value rest'' _ hv => ?_
  obtain ⟨top, hv, hrest⟩ := hv.one
  exact fill_assignTo ht (by omega) hv hrest

theorem fill_tier (t : Tier) (h : Beyond lo ts) :
    Reads ts (tier (n + 1) t) fun _ e rest => Fill lo [.expr e] rest := by
  rw [tier]
  refine .bind (ih.operand t h) fun us first rest _ hf => ?_
  obtain ⟨hi, hf, hrest⟩ := hf.one
  exact ih.tierRest t hf hrest

theorem fill_operand (t : Tier) (h : Beyond lo ts) :
    Reads ts (operand (n + 1) t) fun _ e rest => Fill lo [.expr e] rest := by
  rw [operand]
  split
  · exact ih.tier _ h
  · exact ih.signed h

theorem fill_tierRest (t : Tier) {left : Expr} (hl : (Node.expr left).Between lo hi) (h : Beyond hi ts) :
    Reads ts (tierRest (n + 1) t left) fun _ e rest => Fill lo [.expr e] rest := by
  rw [tierRest]
  refine .acceptAs_bind (fun _ => .pure (fill_one hl h)) fun joint op rest hr _ => ?_
  subst hr
  obtain ⟨hs, ho, hrest⟩ := h
  refine .bind (ih.operand t hrest) fun us right rest' _ hright => ?_
  obtain ⟨top, hright, hrest⟩ := hright.one
  have hend := hright.start.trans hright.ordered
  refine ih.tierRest t (between_from hl (by omega) (List.forall_mem_singleton.2 hright.own) hend hright.stop ?_
    fun part hpart => ?_) hrest
  · cases joint <;> rfl
  · cases joint <;> simp only [Joint.join, Node.parts, Expr.parts, List.map_cons, List.map_nil, List.mem_cons,
      List.not_mem_nil, or_false] at hpart ⊢ <;> tauto

theorem fill_signed (h : Beyond lo ts) : Reads ts (signed (n + 1)) fun _ e rest => Fill lo [.expr e] rest := by
  rw [signed]
  refine .acceptAs_bind (fun _ => ?_) fun op t rest hr _ => ?_
  · refine .bind (ih.primary h) fun us first rest _ hf => ?_
    obtain ⟨hi, hf, hrest⟩ := hf.one
    exact ih.suffixes hf hrest
  · subst hr
    obtain ⟨hl, ho, hrest⟩ := h
    refine .bind (ih.signed hrest) fun us inner rest' _ hi => ?_
    obtain ⟨hi, hinner, hrest⟩ := hi.one
    have hstop := hinner.start.trans hinner.ordered
    refine .pure (fill_one (Node.between_through rfl hl (by omega) hstop hinner.stop ?_) hrest)
    simp only [Node.parts, Expr.parts, List.map_cons, List.map_nil, List.forall_mem_singleton]
    exact ⟨⟨(Nat.le_of_lt ho).trans hinner.start, Nat.le_refl _⟩, hinner.nested⟩

theorem fill_suffixes {first : Expr} (hf : (Node.expr first).Between lo hi) (h : Beyond hi ts) :
    Reads ts (suffixes (n + 1) first) fun _ e rest => Fill lo [.expr e] rest := by
  rw [suffixes]
  refine .acceptAs_bind (fun _ => .pure (fill_one hf h)) fun suffix opened rest hr _ => ?_
  subst hr
  obtain ⟨ho, ho', hrest⟩ := h
  cases suffix with
  | arguments =>
    refine .bind (ih.listUntil .rightParen (some maxArguments) hrest) fun us args rest' _ ha => ?_
    obtain ⟨mid, hm, hrest, hargs⟩ := ha
    refine .expect_bind fun close rest'' hr _ => ?_
    subst hr
    obtain ⟨hc, hc', hrest⟩ := hrest
    refine ih.suffixes (between_from hf (by omega) (fun node hn => (hargs node hn).widen (Nat.le_refl _) (by omega))
      (by omega) (Nat.le_refl _) rfl fun part hpart => ?_) hrest
    exact (List.mem_cons.1 hpart).imp_right .inr
  | index =>
    refine .bind (ih.expression hrest) fun us index rest' _ hi => ?_
    obtain ⟨mid, hm, hrest, hindex⟩ := hi
    refine .expect_bind fun close rest'' hr _ => ?_
    subst hr
    obtain ⟨hc, hc', hrest⟩ := hrest
    refine ih.suffixes (between_from hf (by omega) (fun node hn => (hindex node hn).widen (Nat.le_refl _) (by omega))
      (by omega) (Nat.le_refl _) rfl fun part hpart => ?_) hrest
    exact (List.mem_cons.1 hpart).imp_right .inr
  | property =>
    refine .expect_bind fun name rest' hr _ => ?_
    subst hr
    obtain ⟨hc, hc', hrest⟩ := hrest
    refine ih.suffixes (between_from hf ho (List.forall_mem_nil _) (by omega) (Nat.le_refl _) rfl fun part hpart => ?_) hrest
    exact (List.mem_cons.1 hpart).imp_right .inr

theorem fill_listUntil (close : TokenKind) (room : Option Nat) (h : Beyond lo ts) :
    Reads ts (listUntil (n + 1) close room) fun _ es rest => Fill lo (es.map .expr) rest := by
  rw [listUntil]
  refine .sees_bind fun b _ => ?_
  cases b with
  | true => exact .pure (fill_nil h)
  | false => exact ih.list room h

theorem fill_list (room : Option Nat) (h : Beyond lo ts) :
    Reads ts (list (n + 1) room) fun _ es rest => Fill lo (es.map .expr) rest := by
  by_cases hz : room = some 0
  · rw [hz, list]
    exact .fault
  · rw [list]
    · refine .bind (ih.expression h) fun us e rest _ hfirst => ?_
      refine .accept_bind (fun _ => .pure hfirst) fun comma rest' hr _ => ?_
      subst hr
      obtain ⟨hi, he, hrest⟩ := hfirst.one
      obtain ⟨hc, hc', hrest⟩ := hrest
      refine .bind (ih.list _ hrest) fun vs es rest'' _ hes => ?_
      exact .pure (.more he (by omega) hes)
    · exact hz

theorem fill_primary (h : Beyond lo ts) : Reads ts (primary (n + 1)) fun _ e rest => Fill lo [.expr e] rest := by
  rw [primary]
  refine .bind fill_takeOpening fun us o rest _ ho => ?_
  obtain ⟨o, t⟩ := o
  obtain ⟨-, rfl, hwhole⟩ := ho
  obtain ⟨hl, ht, hrest⟩ := h
  dsimp only at hl ht hrest
  cases o with
  | whole e => exact .pure (fill_one (between_opening (hwhole e rfl) hl ht) hrest)
  | group =>
    refine .bind (ih.expression hrest) fun us inner rest' _ hi => ?_
    obtain ⟨mid, hm, hrest, hinner⟩ := hi
    refine .expect_bind fun close rest'' hr _ => ?_
    subst hr
    obtain ⟨hc, hc', hrest⟩ := hrest
    exact .pure (fill_one (between_tokens hl ht hinner hm hc hc' rfl) hrest)
  | array =>
    refine .bind (ih.listUntil .rightBracket none hrest) fun us items rest' _ hi => ?_
    obtain ⟨mid, hm, hrest, hitems⟩ := hi
    refine .expect_bind fun close rest'' hr _ => ?_
    subst hr
    obtain ⟨hc, hc', hrest⟩ := hrest
    exact .pure (fill_one (between_tokens hl ht hitems hm hc hc' rfl) hrest)
  | hollow => exact .faultAt
  | none => exact .faultAt

end Step

/-- **What an expression is read from lies within it**, whatever the bound. -/
theorem expressions_fill : ∀ n, ExpressionsFill n
  | 0 => by
    constructor <;> intros <;> simp only [expression, tier, operand, tierRest, signed, suffixes, listUntil, list, primary]
    all_goals exact .exhausted
  | n + 1 =>
    have ih := expressions_fill n
    { expression := fill_expression ih
      tier := fun t _ _ => fill_tier ih t
      operand := fun t _ _ => fill_operand ih t
      tierRest := fun t _ _ _ _ => fill_tierRest ih t
      signed := fill_signed ih
      suffixes := fill_suffixes ih
      listUntil := fun close room _ _ => fill_listUntil ih close room
      list := fun room _ _ => fill_list ih room
      primary := fill_primary ih }

end Expressions

/-! ## Parts of statements -/

section Parts

variable {lo hi : Nat} {ts : List Token} (n : Nat)

/-- The parts of an expression as a statement are the expression, or its parts. -/
theorem mem_parts_statementOf {e : Expr} {span : Span} {part : Node} (h : part ∈ (Node.stmt (statementOf e span)).parts) :
    part = .expr e ∨ part ∈ (Node.expr e).parts := by
  unfold statementOf at h
  split at h
  · exact .inr h
  · exact .inl (List.mem_singleton.1 h)

theorem span_statementOf (e : Expr) (span : Span) : (Node.stmt (statementOf e span)).span = span := by
  unfold statementOf
  split <;> rfl

theorem fill_optionalUntil (close : TokenKind) (h : Beyond lo ts) :
    Reads ts (optionalUntil n close) fun _ e rest => Fill lo (e.toList.map .expr) rest := by
  unfold optionalUntil
  refine .sees_bind fun b _ => ?_
  cases b with
  | true => exact .pure (fill_nil h)
  | false => exact .map ((expressions_fill n).expression h)

theorem fill_expressionStatement (h : Beyond lo ts) :
    Reads ts (expressionStatement n) fun _ s rest => Fill lo [.stmt s] rest := by
  unfold expressionStatement
  refine .bind ((expressions_fill n).expression h) fun us e rest _ hexpr => ?_
  refine .expect_bind fun close rest' hr _ => ?_
  subst hr
  obtain ⟨hi, he, hrest⟩ := hexpr.one
  obtain ⟨hc, hc', hrest⟩ := hrest
  refine .pure (fill_one (between_from he hc (List.forall_mem_nil _) (Nat.le_of_lt hc') (Nat.le_refl _)
    (span_statementOf _ _) fun part hpart => ?_) hrest)
  exact (mem_parts_statementOf hpart).imp_right .inl

/-- Parameters leave no nodes. -/
theorem fill_parameters (room : Nat) (h : Beyond lo ts) :
    Reads ts (parameters room) fun _ _ rest => Fill lo [] rest := by
  induction room generalizing lo ts with
  | zero => exact .fault
  | succ room ih =>
    rw [parameters]
    refine .expect_bind fun name rest hr _ => ?_
    subst hr
    obtain ⟨hl, ho, hrest⟩ := h
    refine .accept_bind (fun _ => .pure ((fill_nil hrest).low (by omega))) fun comma rest' hr' _ => ?_
    subst hr'
    obtain ⟨hl', ho', hrest⟩ := hrest
    refine .bind (ih hrest) fun us names rest'' _ hnames => ?_
    exact .pure (hnames.low (by omega))

theorem fill_forStart (h : Beyond lo ts) :
    Reads ts (forStart n) fun _ s rest => Fill lo (s.toList.map .stmt) rest := by
  unfold forStart
  refine .accept_bind (fun _ => .map (fill_expressionStatement n h)) fun t rest hr _ => ?_
  subst hr
  exact .pure ((fill_nil h.2.2).low (by have := h.1; have := h.2.1; omega))

/-- The loop that a `for` stands for goes from its keyword to the end of its body, and its parts, in whatever order they
are put, lie within it. -/
theorem nested_forLoop {keyword : Span} {start : Option Stmt} {condition step : Option Expr} {body : Stmt} {span : Span}
    (hspan : keyword.through body.span = span) (hk : keyword.Within span)
    (hstart : ∀ s ∈ start, (Node.stmt s).Inside span) (hcondition : ∀ e ∈ condition, (Node.expr e).Inside span)
    (hstep : ∀ e ∈ step, (Node.expr e).Inside span) (hbody : (Node.stmt body).Inside span) :
    (forLoop keyword start condition step body).span = span ∧
      (Node.stmt (forLoop keyword start condition step body)).Nested := by
  have hself : span.Within span := ⟨Nat.le_refl _, Nat.le_refl _⟩
  -- One turn of the loop, if a step stands behind the body.
  have hturn : ∀ e ∈ step, (Node.stmt (.block [body, statementOf e e.span] span)).Inside span := by
    intro e hmem
    have he := hstep e hmem
    refine ⟨hself, Node.nested_of_inside (List.forall_mem_cons.2 ⟨hbody, List.forall_mem_singleton.2 ⟨?_, ?_⟩⟩)⟩
    · rw [span_statementOf]
      exact he.1
    · refine Node.nested_of_inside fun part hpart => ?_
      rw [span_statementOf]
      have hown : (Node.expr e).Inside e.span := ⟨⟨Nat.le_refl _, Nat.le_refl _⟩, he.2⟩
      rcases mem_parts_statementOf hpart with rfl | hpart
      · exact hown
      · exact hown.part hpart
  have htest : (Node.expr (condition.getD (.literal (.boolean true) keyword))).Inside span := by
    cases condition with
    | none => exact ⟨hk, Node.nested_of_inside (List.forall_mem_nil _)⟩
    | some e => exact hcondition e rfl
  subst hspan
  have hloop : (Node.stmt (forLoop keyword none condition step body)).Nested := by
    cases step with
    | none => exact Node.nested_of_inside (List.forall_mem_cons.2 ⟨htest, List.forall_mem_singleton.2 hbody⟩)
    | some e =>
      exact Node.nested_of_inside (List.forall_mem_cons.2 ⟨htest, List.forall_mem_singleton.2 (hturn e rfl)⟩)
  cases start with
  | none => exact ⟨rfl, hloop⟩
  | some s =>
    refine ⟨rfl, Node.nested_of_inside (List.forall_mem_cons.2 ⟨hstart s rfl, List.forall_mem_singleton.2 ?_⟩)⟩
    exact ⟨hself, hloop⟩

/-- A condition in parentheses. -/
theorem fill_condition {f g : GrammarFault} {k : Expr → Reader Stmt} {H : Stmt → List Token → Prop}
    (h : Beyond lo ts) (hk : ∀ {e low rest}, (Node.expr e).Between lo low → Beyond low rest →
      Reads rest (k e) fun _ s rest => H s rest) :
    Reads ts (do
      let _ ← expect .leftParen f
      let e ← expression n
      let _ ← expect .rightParen g
      k e) fun _ s rest => H s rest := by
  refine .expect_bind fun opened rest hr _ => ?_
  subst hr
  obtain ⟨ho, ho', hrest⟩ := h
  refine .bind ((expressions_fill n).expression hrest) fun us e rest₁ _ hexpr => ?_
  refine .expect_bind fun closed rest₂ hr₂ _ => ?_
  subst hr₂
  obtain ⟨mid, he, hc, hc', hrest₂⟩ := hexpr.one
  exact hk (he.widen (by omega) (by omega)) hrest₂

/-- What stands between a keyword and the token that closes its statement. -/
theorem fill_keyword {s : Stmt} {keyword close : Token} {nodes : List Node} {low mid : Nat} {rest : List Token}
    (hk : lo ≤ keyword.span.start) (hk' : keyword.span.start < keyword.span.stop) (hl : keyword.span.stop ≤ low)
    (hn : ∀ node ∈ nodes, node.Between low mid) (hm : low ≤ mid) (hrest : Beyond mid (close :: rest))
    (hs : s.span = keyword.span.through close.span) (hp : (Node.stmt s).parts = nodes) : Fill lo [.stmt s] rest := by
  obtain ⟨hc, hc', hrest⟩ := hrest
  refine fill_one (between_tokens hk hk' (fun part hpart => ?_) (hl.trans hm) hc hc' hs) hrest
  exact (hn part (hp ▸ hpart)).widen hl (Nat.le_refl mid)

variable {keyword : Token} (hk : lo ≤ keyword.span.start) (hk' : keyword.span.start < keyword.span.stop)
include hk hk'

theorem fill_returnStatement (h : Beyond keyword.span.stop ts) :
    Reads ts (returnStatement n keyword) fun _ s rest => Fill lo [.stmt s] rest := by
  unfold returnStatement
  refine .bind (fill_optionalUntil n .semicolon h) fun us value rest _ hv => ?_
  refine .expect_bind fun close rest' hr _ => ?_
  subst hr
  obtain ⟨mid, hm, hrest, hvalue⟩ := hv
  exact .pure (fill_keyword hk hk' (Nat.le_refl _) hvalue hm hrest rfl rfl)

theorem fill_printStatement (newline : Bool) (h : Beyond keyword.span.stop ts) :
    Reads ts (printStatement n newline keyword) fun _ s rest => Fill lo [.stmt s] rest := by
  unfold printStatement
  refine .expect_bind fun opened rest hr _ => ?_
  subst hr
  obtain ⟨ho, ho', hrest⟩ := h
  refine .bind ((expressions_fill n).expression hrest) fun us e rest₁ _ he => ?_
  refine .expect_bind fun closed rest₂ hr₂ _ => ?_
  subst hr₂
  obtain ⟨mid, hm, ⟨hc, hc', hrest⟩, he⟩ := he
  refine .expect_bind fun close rest₃ hr₃ _ => ?_
  subst hr₃
  refine .pure (fill_keyword hk hk' (by omega : _ ≤ opened.span.stop) (fun node hn => (he node hn).widen (Nat.le_refl _)
    (by omega : mid ≤ closed.span.stop)) (by omega) hrest rfl rfl)

theorem fill_inputStatement (h : Beyond keyword.span.stop ts) :
    Reads ts (inputStatement n keyword) fun _ s rest => Fill lo [.stmt s] rest := by
  unfold inputStatement
  refine .expect_bind fun opened rest hr _ => ?_
  subst hr
  obtain ⟨ho, ho', hrest⟩ := h
  refine .bind (fill_optionalUntil n .rightParen hrest) fun us e rest₁ _ he => ?_
  refine .expect_bind fun closed rest₂ hr₂ _ => ?_
  subst hr₂
  obtain ⟨mid, hm, ⟨hc, hc', hrest⟩, he⟩ := he
  refine .expect_bind fun close rest₃ hr₃ _ => ?_
  subst hr₃
  refine .pure (fill_keyword hk hk' (by omega : _ ≤ opened.span.stop) (fun node hn => (he node hn).widen (Nat.le_refl _)
    (by omega : mid ≤ closed.span.stop)) (by omega) hrest rfl rfl)

/-- A statement from a keyword to the end of its last part. -/
theorem fill_upTo {s last : Stmt} {low hi : Nat} {rest : List Token} (hlast : (Node.stmt last).Between low hi)
    (hl : keyword.span.stop ≤ low) (hrest : Beyond hi rest) (hs : s.span = keyword.span.through last.span)
    (hp : ∀ part ∈ (Node.stmt s).parts, part = .stmt last ∨ part.Between keyword.span.start last.span.stop) :
    Fill lo [.stmt s] rest := by
  have hstop : keyword.span.stop ≤ last.span.stop := (hl.trans hlast.start).trans hlast.ordered
  have hstart : keyword.span.start ≤ last.span.start := (Nat.le_of_lt hk').trans (hl.trans hlast.start)
  refine fill_one (Node.between_through hs hk (Nat.le_of_lt hk') hstop hlast.stop fun part hpart => ?_) hrest
  rcases hp part hpart with rfl | hpart
  · exact ⟨⟨hstart, Nat.le_refl _⟩, hlast.nested⟩
  · exact hpart.inside (Nat.le_refl _) (Nat.le_refl _)

theorem fill_forLoop {start : Option Stmt} {condition step : Option Expr} {body : Stmt} {mid hi : Nat}
    {rest : List Token} (hstart : ∀ node ∈ start.toList.map Node.stmt, node.Between keyword.span.stop mid)
    (hcondition : ∀ node ∈ condition.toList.map Node.expr, node.Between keyword.span.stop mid)
    (hstep : ∀ node ∈ step.toList.map Node.expr, node.Between keyword.span.stop mid)
    (hbody : (Node.stmt body).Between mid hi) (hm : keyword.span.stop ≤ mid) (hrest : Beyond hi rest) :
    Fill lo [.stmt (forLoop keyword.span start condition step body)] rest := by
  have hmid : mid ≤ body.span.stop := hbody.own.le
  have hspan : keyword.span.through body.span = ⟨keyword.span.start, body.span.stop, keyword.span.line⟩ := by
    rw [Span.through, Nat.max_eq_left (hm.trans hmid)]
  have hclause : ∀ {node : Node}, node.Between keyword.span.stop mid →
      node.Inside ⟨keyword.span.start, body.span.stop, keyword.span.line⟩ :=
    fun h => h.inside (Nat.le_of_lt hk') hmid
  obtain ⟨hspan', hnested⟩ := nested_forLoop hspan ⟨Nat.le_refl _, hm.trans hmid⟩
    (fun s hs => hclause (hstart _ (List.mem_map_of_mem (Option.mem_toList.2 hs))))
    (fun e he => hclause (hcondition _ (List.mem_map_of_mem (Option.mem_toList.2 he))))
    (fun e he => hclause (hstep _ (List.mem_map_of_mem (Option.mem_toList.2 he))))
    (hbody.own.inside (by dsimp only; omega) (Nat.le_refl _))
  refine fill_one ⟨?_, ?_, ?_, hnested⟩ hrest <;> rw [Node.span, hspan']
  · exact hk
  · exact (Nat.le_of_lt hk').trans (hm.trans hmid)
  · exact hbody.stop

end Parts

/-! ## Statements -/

/-- What the readers of statements do with a bound `n`, from a position on. -/
structure StatementsFill (n : Nat) : Prop where
  declaration : ∀ {lo ts}, Beyond lo ts → Reads ts (declaration n) fun _ s rest => Fill lo [.stmt s] rest
  functionDeclaration : ∀ {lo ts keyword}, lo ≤ keyword.span.start → keyword.span.start < keyword.span.stop →
    Beyond keyword.span.stop ts → Reads ts (functionDeclaration n keyword) fun _ s rest => Fill lo [.stmt s] rest
  blockRest : ∀ {lo ts}, Beyond lo ts → Reads ts (blockRest n) fun _ b rest =>
    ∃ mid, lo ≤ mid ∧ (∀ s ∈ b.1, (Node.stmt s).Between lo mid) ∧ Beyond mid (b.2 :: rest)
  statement : ∀ {lo ts}, Beyond lo ts → Reads ts (statement n) fun _ s rest => Fill lo [.stmt s] rest

section Step

variable {n lo : Nat} {ts : List Token} (ih : StatementsFill n)
include ih

theorem fill_declaration (h : Beyond lo ts) :
    Reads ts (declaration (n + 1)) fun _ s rest => Fill lo [.stmt s] rest := by
  rw [declaration]
  refine .accept_bind (fun _ => ih.statement h) fun keyword rest hr _ => ?_
  subst hr
  exact ih.functionDeclaration h.1 h.2.1 h.2.2

theorem fill_functionDeclaration {keyword : Token} (hk : lo ≤ keyword.span.start)
    (hk' : keyword.span.start < keyword.span.stop) (h : Beyond keyword.span.stop ts) :
    Reads ts (functionDeclaration (n + 1) keyword) fun _ s rest => Fill lo [.stmt s] rest := by
  rw [functionDeclaration]
  refine .expect_bind fun name rest hr _ => ?_
  subst hr
  obtain ⟨hn, hn', hrest⟩ := h
  refine .expect_bind fun opened rest₁ hr₁ _ => ?_
  subst hr₁
  obtain ⟨ho, ho', hrest⟩ := hrest
  -- The rest is the same whether there are parameters or not.
  have tail : ∀ {params : List String} {rest₂ : List Token}, Fill opened.span.stop [] rest₂ → Reads rest₂ (do
      let _ ← expect .rightParen .parametersClose
      let _ ← expect .leftBrace .functionBody
      let b ← blockRest n
      pure (.function name.lexeme params b.1 (keyword.span.through b.2.span)))
      fun _ s rest => Fill lo [.stmt s] rest := by
    intro params rest₂ hfill
    obtain ⟨low, hlow, hrest₂, -⟩ := hfill
    refine .expect_bind fun closed rest₃ hr₃ _ => ?_
    subst hr₃
    obtain ⟨hc, hc', hrest₃⟩ := hrest₂
    refine .expect_bind fun brace rest₄ hr₄ _ => ?_
    subst hr₄
    obtain ⟨hb, hb', hrest₄⟩ := hrest₃
    refine .bind (ih.blockRest hrest₄) fun us b rest₅ _ hbody => ?_
    obtain ⟨mid, hm, hbody, hrest₅⟩ := hbody
    exact .pure (fill_keyword hk hk' (by omega : _ ≤ brace.span.stop) (List.forall_mem_map.2 hbody) hm hrest₅ rfl rfl)
  refine .sees_bind fun b _ => ?_
  cases b with
  | true =>
    exact .bind (.pure (G := fun _ _ rest => Fill opened.span.stop [] rest) (fill_nil hrest)) fun _ _ _ _ h => tail h
  | false => exact .bind (fill_parameters maxArguments hrest) fun _ _ _ _ h => tail h

theorem fill_blockRest (h : Beyond lo ts) : Reads ts (blockRest (n + 1)) fun _ b rest =>
    ∃ mid, lo ≤ mid ∧ (∀ s ∈ b.1, (Node.stmt s).Between lo mid) ∧ Beyond mid (b.2 :: rest) := by
  rw [blockRest]
  refine .accept_bind (fun _ => ?_) fun close rest hr _ => ?_
  · refine .bind .atEnd fun used b rest hu hg => ?_
    subst hg
    cases hu
    cases b with
    | true => exact .fault
    | false =>
      refine .bind (ih.declaration h) fun us s rest₁ _ hs => ?_
      obtain ⟨hi, hs, hrest₁⟩ := hs.one
      refine .bind (ih.blockRest hrest₁) fun vs b rest₂ _ hb => ?_
      obtain ⟨mid, hm, hb, hrest₂⟩ := hb
      have hlo := hs.le
      refine .pure ⟨mid, hlo.trans hm, List.forall_mem_cons.2 ⟨hs.widen (Nat.le_refl lo) hm, fun s' hs' => ?_⟩, hrest₂⟩
      exact (hb s' hs').widen hlo (Nat.le_refl mid)
  · subst hr
    exact .pure ⟨lo, Nat.le_refl lo, List.forall_mem_nil _, h⟩

theorem fill_statement (h : Beyond lo ts) :
    Reads ts (statement (n + 1)) fun _ s rest => Fill lo [.stmt s] rest := by
  rw [statement]
  refine .acceptAs_bind (fun _ => fill_expressionStatement n h) fun lead keyword rest hr _ => ?_
  subst hr
  obtain ⟨hk, hk', hrest⟩ := h
  cases lead with
  | ifLead =>
    refine fill_condition n hrest fun {e low rest₁} he hrest₁ => ?_
    refine .bind (ih.statement hrest₁) fun vs yes rest₂ _ hyes => ?_
    obtain ⟨hi, hy, hrest₂⟩ := hyes.one
    refine .accept_bind (fun _ => ?_) fun other rest₃ hr₃ _ => ?_
    · refine .pure (fill_upTo hk hk' hy he.le hrest₂ rfl fun part hpart => ?_)
      rcases List.mem_cons.1 hpart with rfl | hpart
      · exact .inr (he.widen (Nat.le_of_lt hk') hy.own.le)
      · exact .inl (List.mem_singleton.1 hpart)
    · subst hr₃
      obtain ⟨ho, ho', hrest₃⟩ := hrest₂
      refine .bind (ih.statement hrest₃) fun ws no rest₄ _ hno => ?_
      obtain ⟨top, hn, hrest₄⟩ := hno.one
      have hlow := he.le
      have hhi := hy.le
      have htop : other.span.stop ≤ no.span.stop := hn.own.le
      refine .pure (fill_upTo hk hk' hn (by omega) hrest₄ rfl fun part hpart => ?_)
      rcases List.mem_cons.1 hpart with rfl | hpart
      · exact .inr (he.widen (Nat.le_of_lt hk') (by omega))
      · rcases List.mem_cons.1 hpart with rfl | hpart
        · exact .inr (hy.widen (by omega) (by omega))
        · exact .inl (List.mem_singleton.1 hpart)
  | whileLead =>
    refine fill_condition n hrest fun {e low rest₁} he hrest₁ => ?_
    refine .bind (ih.statement hrest₁) fun vs body rest₂ _ hbody => ?_
    obtain ⟨hi, hb, hrest₂⟩ := hbody.one
    refine .pure (fill_upTo hk hk' hb he.le hrest₂ rfl fun part hpart => ?_)
    rcases List.mem_cons.1 hpart with rfl | hpart
    · exact .inr (he.widen (Nat.le_of_lt hk') hb.own.le)
    · exact .inl (List.mem_singleton.1 hpart)
  | forLead =>
    refine .expect_bind fun opened rest₁ hr₁ _ => ?_
    subst hr₁
    obtain ⟨ho, ho', hrest₁⟩ := hrest
    refine .bind (fill_forStart n hrest₁) fun _ start rest₂ _ hs => ?_
    obtain ⟨p₁, hp₁, hrest₂, hstart⟩ := hs
    refine .bind (fill_optionalUntil n .semicolon hrest₂) fun _ condition rest₃ _ hc => ?_
    obtain ⟨p₂, hp₂, hrest₃, hcondition⟩ := hc
    refine .expect_bind fun middle rest₄ hr₄ _ => ?_
    subst hr₄
    obtain ⟨hm, hm', hrest₄⟩ := hrest₃
    refine .bind (fill_optionalUntil n .rightParen hrest₄) fun _ step rest₅ _ hst => ?_
    obtain ⟨p₃, hp₃, hrest₅, hstep⟩ := hst
    refine .expect_bind fun closed rest₆ hr₆ _ => ?_
    subst hr₆
    obtain ⟨hc, hc', hrest₆⟩ := hrest₅
    refine .bind (ih.statement hrest₆) fun _ body rest₇ _ hbody => ?_
    obtain ⟨hi, hb, hrest₇⟩ := hbody.one
    -- All clauses stand between the keyword and the body.
    refine .pure (fill_forLoop hk hk' (fun node hn => (hstart node hn).widen (by omega) (by omega))
      (fun node hn => (hcondition node hn).widen (by omega) (by omega))
      (fun node hn => (hstep node hn).widen (by omega) (by omega)) hb (by omega) hrest₇)
  | returnLead => exact fill_returnStatement n hk hk' hrest
  | printLead newline => exact fill_printStatement n hk hk' newline hrest
  | inputLead => exact fill_inputStatement n hk hk' hrest
  | blockLead =>
    refine .bind (ih.blockRest hrest) fun us b rest₁ _ hb => ?_
    obtain ⟨mid, hm, hbody, hrest₁⟩ := hb
    exact .pure (fill_keyword hk hk' (Nat.le_refl _) (List.forall_mem_map.2 hbody) hm hrest₁ rfl rfl)

end Step

/-- **What a statement is read from lies within it**, whatever the bound. -/
theorem statements_fill : ∀ n, StatementsFill n
  | 0 => by
    constructor <;> intros <;> simp only [declaration, functionDeclaration, blockRest, statement] <;> exact .exhausted
  | n + 1 =>
    have ih := statements_fill n
    { declaration := fill_declaration ih
      functionDeclaration := fill_functionDeclaration ih
      blockRest := fill_blockRest ih
      statement := fill_statement ih }

/-! ## Programs -/

/-- The declarations that are read up to the end follow each other. -/
theorem declarations_fill {n : Nat} {p : Program} : ∀ {turns lo : Nat} {done : List Stmt} {c : Cursor},
    declarations n done turns c = .ok p → Beyond lo c.ahead → ∃ ss, p = done.reverse ++ ss ∧
      (∀ s ∈ ss, lo ≤ s.span.start ∧ (Node.stmt s).Nested) ∧ ss.Pairwise fun a b => a.span.stop ≤ b.span.start
  | 0, _, done, _, h, _ => by
    cases h
    exact ⟨[], by simp, List.forall_mem_nil _, .nil⟩
  | turns + 1, lo, done, c, h, hc => by
    rw [declarations] at h
    split at h
    · cases h
      exact ⟨[], by simp, List.forall_mem_nil _, .nil⟩
    · split at h
      · rename_i s c' hn
        obtain ⟨-, -, hfill⟩ := ((statements_fill n).declaration hc).done rfl (nextDeclaration_ok_iff.1 hn)
        obtain ⟨hi, hs, hrest⟩ := hfill.one
        obtain ⟨ss, hp, hss, hpairs⟩ := declarations_fill h hrest
        refine ⟨s :: ss, by simp [hp], List.forall_mem_cons.2 ⟨⟨hs.start, hs.nested⟩, fun s' hs' => ?_⟩,
          List.pairwise_cons.2 ⟨fun s' hs' => hs.stop.trans (hss s' hs').1, hpairs⟩⟩
        exact ⟨hs.le.trans (hss s' hs').1, (hss s' hs').2⟩
      · cases h

end Grammar

/-- **The spans of a program are sound.** Every node of a program that compiles, in the bodies of functions and in the
loops that `for` stands for as well, has a span of at least one character in the text, on the line that this starts on,
and the spans of its parts lie within it. The statements at the top follow each other in the text as they do in the
program. -/
theorem spans_of_compile {source : String} {program : Program} (h : compile source = .ok program) :
    (∀ node : Node, node.In program → node.span.start < node.span.stop ∧ node.span.stop ≤ source.toList.length ∧
      node.span.line = 1 + (source.toList.take node.span.start).count '\n' ∧
      ∀ part ∈ node.parts, part.span.Within node.span) ∧
    program.Pairwise fun a b => a.span.stop ≤ b.span.start := by
  have hpoints := pointsInto_of_compile h
  cases hscan : scan source with
  | error d =>
    rw [compile, hscan] at h
    cases h
  | ok tokens =>
    rw [compile_of_scan hscan] at h
    obtain ⟨ss, hp, hss, hpairs⟩ := Grammar.declarations_fill h (beyond_of_scan hscan)
    rw [List.reverse_nil, List.nil_append] at hp
    subst hp
    refine ⟨fun node hnode => ?_, hpairs⟩
    have hspan := hpoints _ hnode.span_mem
    have hnested := hnode.nested fun s hs => (hss s hs).2
    cases hnested with
    | intro hwithin _ => exact ⟨hspan.nonempty, hspan.within, hspan.line, hwithin⟩

/-- A loop over three lines, of which the body comes last and is put before the step. -/
def forOverLines : String := "for (i = a;\n i; i = b)\n  f();"

/-- A turn of that loop. -/
def forOverLinesTurn : Stmt :=
  .block [.expr (.call (.name "f" ⟨25, 26, 3⟩) [] ⟨25, 28, 3⟩) ⟨25, 29, 3⟩,
    .assign "i" (.name "b" ⟨20, 21, 2⟩) ⟨16, 21, 2⟩] ⟨0, 29, 1⟩

/-- All of its turns. -/
def forOverLinesLoop : Stmt := .loop (.name "i" ⟨13, 14, 2⟩) forOverLinesTurn ⟨0, 29, 1⟩

/-- The start, and the turns behind it. -/
def forOverLinesBlock : Stmt :=
  .block [.assign "i" (.name "a" ⟨9, 10, 1⟩) ⟨5, 11, 1⟩, forOverLinesLoop] ⟨0, 29, 1⟩

theorem compile_forOverLines : compile forOverLines = .ok [forOverLinesBlock] := by
  have hscan : scan forOverLines = .ok
      [⟨.for, "for", none, ⟨0, 3, 1⟩⟩, ⟨.leftParen, "(", none, ⟨4, 5, 1⟩⟩, ⟨.identifier, "i", none, ⟨5, 6, 1⟩⟩,
        ⟨.equal, "=", none, ⟨7, 8, 1⟩⟩, ⟨.identifier, "a", none, ⟨9, 10, 1⟩⟩, ⟨.semicolon, ";", none, ⟨10, 11, 1⟩⟩,
        ⟨.identifier, "i", none, ⟨13, 14, 2⟩⟩, ⟨.semicolon, ";", none, ⟨14, 15, 2⟩⟩,
        ⟨.identifier, "i", none, ⟨16, 17, 2⟩⟩, ⟨.equal, "=", none, ⟨18, 19, 2⟩⟩, ⟨.identifier, "b", none, ⟨20, 21, 2⟩⟩,
        ⟨.rightParen, ")", none, ⟨21, 22, 2⟩⟩, ⟨.identifier, "f", none, ⟨25, 26, 3⟩⟩,
        ⟨.leftParen, "(", none, ⟨26, 27, 3⟩⟩, ⟨.rightParen, ")", none, ⟨27, 28, 3⟩⟩,
        ⟨.semicolon, ";", none, ⟨28, 29, 3⟩⟩, .eof ⟨29, 29, 3⟩] := (scan_eq_scanWithin _).trans rfl
  rw [compile_of_scan hscan]
  rfl

/-- The step is the second part of the turn, before the first one in the text, and lies within it all the same. -/
theorem spans_of_compile_forOverLines : compile forOverLines = .ok [forOverLinesBlock] ∧
    (Node.stmt forOverLinesTurn).In [forOverLinesBlock] ∧ (Node.stmt forOverLinesTurn).span = ⟨0, 29, 1⟩ ∧
    ∀ part ∈ (Node.stmt forOverLinesTurn).parts, part.span.Within ⟨0, 29, 1⟩ := by
  have hblock : (Node.stmt forOverLinesBlock).In [forOverLinesBlock] := .top (List.mem_singleton_self _)
  have hloop : (Node.stmt forOverLinesLoop).In [forOverLinesBlock] :=
    hblock.part (List.mem_cons_of_mem _ List.mem_cons_self)
  have hturn : (Node.stmt forOverLinesTurn).In [forOverLinesBlock] :=
    hloop.part (List.mem_cons_of_mem _ List.mem_cons_self)
  exact ⟨compile_forOverLines, hturn, rfl, ((spans_of_compile compile_forOverLines).1 _ hturn).2.2.2⟩

end StepScript
