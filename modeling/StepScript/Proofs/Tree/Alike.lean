import Mathlib.Data.Option.Basic
import StepScript.Proofs.Tree.Bare

/-!
# Trees that differ in their spans

`Expr.spans` and `Stmt.spans` list the spans of all nodes of a tree. Two trees are alike for a relation of spans
(`Expr.Alike R`, `Stmt.Alike R`) if they are the same but for their spans, and those are related node by node.

* Trees that are alike have the same bare tree (`Stmt.AllAlike.bares_eq`).
* Each span of the first tree is related to some span (`Stmt.AllAlike.of_mem`).
-/

namespace StepScript

/-! ## The spans of a tree -/

mutual

/-- The spans of an expression and of its parts. -/
def Expr.spans : Expr → List Span
  | .literal _ span => [span]
  | .name _ span => [span]
  | .assign _ value span => span :: value.spans
  | .binary _ left right span => span :: (left.spans ++ right.spans)
  | .logical _ left right span => span :: (left.spans ++ right.spans)
  | .unary _ operand span => span :: operand.spans
  | .call callee args span => span :: (callee.spans ++ Expr.spansOf args)
  | .group inner span => span :: inner.spans
  | .array items span => span :: Expr.spansOf items
  | .property object _ span => span :: object.spans
  | .element object index span => span :: (object.spans ++ index.spans)
  | .setProperty object _ value span => span :: (object.spans ++ value.spans)
  | .setElement object index value span => span :: (object.spans ++ index.spans ++ value.spans)

/-- The spans of expressions and of their parts. -/
def Expr.spansOf : List Expr → List Span
  | [] => []
  | e :: es => e.spans ++ Expr.spansOf es

end

mutual

/-- The spans of a statement and of its parts, bodies of functions included. -/
def Stmt.spans : Stmt → List Span
  | .expr e span => span :: e.spans
  | .print e _ span => span :: e.spans
  | .input _ prompt span => span :: Expr.spansOf prompt.toList
  | .assign _ value span => span :: value.spans
  | .block body span => span :: Stmt.spansOf body
  | .branch condition yes none span => span :: (condition.spans ++ yes.spans)
  | .branch condition yes (some no) span => span :: (condition.spans ++ yes.spans ++ no.spans)
  | .loop condition body span => span :: (condition.spans ++ body.spans)
  | .function _ _ body span => span :: Stmt.spansOf body
  | .leave value span => span :: Expr.spansOf value.toList

/-- The spans of statements and of their parts; those of a program. -/
def Stmt.spansOf : List Stmt → List Span
  | [] => []
  | s :: ss => s.spans ++ Stmt.spansOf ss

end

/-! ## The same tree elsewhere -/

section Alike

variable (R : Span → Span → Prop)

mutual

/-- The same expression, with related spans. -/
inductive Expr.Alike : Expr → Expr → Prop
  | literal {value : Literal} {s s' : Span} : R s s' → Expr.Alike (.literal value s) (.literal value s')
  | name {x : String} {s s' : Span} : R s s' → Expr.Alike (.name x s) (.name x s')
  | assign {x : String} {value value' : Expr} {s s' : Span} : Expr.Alike value value' → R s s' →
      Expr.Alike (.assign x value s) (.assign x value' s')
  | binary {op : BinaryOp} {left left' right right' : Expr} {s s' : Span} : Expr.Alike left left' →
      Expr.Alike right right' → R s s' → Expr.Alike (.binary op left right s) (.binary op left' right' s')
  | logical {op : LogicalOp} {left left' right right' : Expr} {s s' : Span} : Expr.Alike left left' →
      Expr.Alike right right' → R s s' → Expr.Alike (.logical op left right s) (.logical op left' right' s')
  | unary {op : UnaryOp} {operand operand' : Expr} {s s' : Span} : Expr.Alike operand operand' → R s s' →
      Expr.Alike (.unary op operand s) (.unary op operand' s')
  | call {callee callee' : Expr} {args args' : List Expr} {s s' : Span} : Expr.Alike callee callee' →
      Expr.AllAlike args args' → R s s' → Expr.Alike (.call callee args s) (.call callee' args' s')
  | group {inner inner' : Expr} {s s' : Span} : Expr.Alike inner inner' → R s s' →
      Expr.Alike (.group inner s) (.group inner' s')
  | array {items items' : List Expr} {s s' : Span} : Expr.AllAlike items items' → R s s' →
      Expr.Alike (.array items s) (.array items' s')
  | property {object object' : Expr} {x : String} {s s' : Span} : Expr.Alike object object' → R s s' →
      Expr.Alike (.property object x s) (.property object' x s')
  | element {object object' index index' : Expr} {s s' : Span} : Expr.Alike object object' →
      Expr.Alike index index' → R s s' → Expr.Alike (.element object index s) (.element object' index' s')
  | setProperty {object object' value value' : Expr} {x : String} {s s' : Span} : Expr.Alike object object' →
      Expr.Alike value value' → R s s' → Expr.Alike (.setProperty object x value s) (.setProperty object' x value' s')
  | setElement {object object' index index' value value' : Expr} {s s' : Span} : Expr.Alike object object' →
      Expr.Alike index index' → Expr.Alike value value' → R s s' →
      Expr.Alike (.setElement object index value s) (.setElement object' index' value' s')

/-- The same expressions in the same order, with related spans. -/
inductive Expr.AllAlike : List Expr → List Expr → Prop
  | nil : Expr.AllAlike [] []
  | cons {e e' : Expr} {es es' : List Expr} : Expr.Alike e e' → Expr.AllAlike es es' →
      Expr.AllAlike (e :: es) (e' :: es')

end

mutual

/-- The same statement, with related spans. -/
inductive Stmt.Alike : Stmt → Stmt → Prop
  | expr {e e' : Expr} {s s' : Span} : Expr.Alike R e e' → R s s' → Stmt.Alike (.expr e s) (.expr e' s')
  | print {e e' : Expr} {newline : Bool} {s s' : Span} : Expr.Alike R e e' → R s s' →
      Stmt.Alike (.print e newline s) (.print e' newline s')
  | input {keyword : String} {prompt prompt' : Option Expr} {s s' : Span} : Option.Rel (Expr.Alike R) prompt prompt' →
      R s s' → Stmt.Alike (.input keyword prompt s) (.input keyword prompt' s')
  | assign {x : String} {value value' : Expr} {s s' : Span} : Expr.Alike R value value' → R s s' →
      Stmt.Alike (.assign x value s) (.assign x value' s')
  | block {body body' : List Stmt} {s s' : Span} : Stmt.AllAlike body body' → R s s' →
      Stmt.Alike (.block body s) (.block body' s')
  | branch {condition condition' : Expr} {yes yes' : Stmt} {s s' : Span} : Expr.Alike R condition condition' →
      Stmt.Alike yes yes' → R s s' → Stmt.Alike (.branch condition yes none s) (.branch condition' yes' none s')
  | choice {condition condition' : Expr} {yes yes' no no' : Stmt} {s s' : Span} : Expr.Alike R condition condition' →
      Stmt.Alike yes yes' → Stmt.Alike no no' → R s s' →
      Stmt.Alike (.branch condition yes (some no) s) (.branch condition' yes' (some no') s')
  | loop {condition condition' : Expr} {body body' : Stmt} {s s' : Span} : Expr.Alike R condition condition' →
      Stmt.Alike body body' → R s s' → Stmt.Alike (.loop condition body s) (.loop condition' body' s')
  | function {x : String} {params : List String} {body body' : List Stmt} {s s' : Span} : Stmt.AllAlike body body' →
      R s s' → Stmt.Alike (.function x params body s) (.function x params body' s')
  | leave {value value' : Option Expr} {s s' : Span} : Option.Rel (Expr.Alike R) value value' → R s s' →
      Stmt.Alike (.leave value s) (.leave value' s')

/-- The same statements in the same order, with related spans. -/
inductive Stmt.AllAlike : List Stmt → List Stmt → Prop
  | nil : Stmt.AllAlike [] []
  | cons {s s' : Stmt} {ss ss' : List Stmt} : Stmt.Alike s s' → Stmt.AllAlike ss ss' →
      Stmt.AllAlike (s :: ss) (s' :: ss')

end

end Alike

variable {R : Span → Span → Prop}

theorem Expr.Alike.span {e e' : Expr} (h : Expr.Alike R e e') : R e.span e'.span := by
  cases h <;> assumption

theorem Stmt.Alike.span {s s' : Stmt} (h : Stmt.Alike R s s') : R s.span s'.span := by
  cases h <;> assumption

theorem Stmt.AllAlike.append {ss ss' ts ts' : List Stmt} (h : Stmt.AllAlike R ss ss') (ht : Stmt.AllAlike R ts ts') :
    Stmt.AllAlike R (ss ++ ts) (ss' ++ ts') := by
  induction ss generalizing ss' with
  | nil => cases h; exact ht
  | cons s ss ih =>
    cases h with
    | cons hs h => exact .cons hs (ih h)

theorem Stmt.AllAlike.reverse {ss ss' : List Stmt} (h : Stmt.AllAlike R ss ss') :
    Stmt.AllAlike R ss.reverse ss'.reverse := by
  induction ss generalizing ss' with
  | nil => cases h; exact .nil
  | cons s ss ih =>
    cases h with
    | cons hs h =>
      rw [List.reverse_cons, List.reverse_cons]
      exact (ih h).append (.cons hs .nil)

/-! ## The bare tree -/

mutual

theorem Expr.Alike.bare_eq {e e' : Expr} : Expr.Alike R e e' → e.bare = e'.bare
  | .literal _ => rfl
  | .name _ => rfl
  | .assign hv _ => by rw [Expr.bare, Expr.bare, hv.bare_eq]
  | .binary hl hr _ => by rw [Expr.bare, Expr.bare, hl.bare_eq, hr.bare_eq]
  | .logical hl hr _ => by rw [Expr.bare, Expr.bare, hl.bare_eq, hr.bare_eq]
  | .unary ho _ => by rw [Expr.bare, Expr.bare, ho.bare_eq]
  | .call hc ha _ => by rw [Expr.bare, Expr.bare, hc.bare_eq, ha.bares_eq]
  | .group hi _ => by rw [Expr.bare, Expr.bare, hi.bare_eq]
  | .array hi _ => by rw [Expr.bare, Expr.bare, hi.bares_eq]
  | .property ho _ => by rw [Expr.bare, Expr.bare, ho.bare_eq]
  | .element ho hi _ => by rw [Expr.bare, Expr.bare, ho.bare_eq, hi.bare_eq]
  | .setProperty ho hv _ => by rw [Expr.bare, Expr.bare, ho.bare_eq, hv.bare_eq]
  | .setElement ho hi hv _ => by rw [Expr.bare, Expr.bare, ho.bare_eq, hi.bare_eq, hv.bare_eq]

theorem Expr.AllAlike.bares_eq {es es' : List Expr} : Expr.AllAlike R es es' → Expr.bares es = Expr.bares es'
  | .nil => rfl
  | .cons h hs => by rw [Expr.bares, Expr.bares, h.bare_eq, hs.bares_eq]

end

theorem map_bare_eq {e e' : Option Expr} (h : Option.Rel (Expr.Alike R) e e') : e.map Expr.bare = e'.map Expr.bare := by
  cases h with
  | none => rfl
  | some h => rw [Option.map_some, Option.map_some, h.bare_eq]

mutual

theorem Stmt.Alike.bare_eq {s s' : Stmt} : Stmt.Alike R s s' → s.bare = s'.bare
  | .expr he _ => by rw [Stmt.bare, Stmt.bare, he.bare_eq]
  | .print he _ => by rw [Stmt.bare, Stmt.bare, he.bare_eq]
  | .input hp _ => by rw [Stmt.bare, Stmt.bare, map_bare_eq hp]
  | .assign hv _ => by rw [Stmt.bare, Stmt.bare, hv.bare_eq]
  | .block hb _ => by rw [Stmt.bare, Stmt.bare, hb.bares_eq]
  | .branch hc hy _ => by rw [Stmt.bare, Stmt.bare, hc.bare_eq, hy.bare_eq]
  | .choice hc hy hn _ => by rw [Stmt.bare, Stmt.bare, hc.bare_eq, hy.bare_eq, hn.bare_eq]
  | .loop hc hb _ => by rw [Stmt.bare, Stmt.bare, hc.bare_eq, hb.bare_eq]
  | .function hb _ => by rw [Stmt.bare, Stmt.bare, hb.bares_eq]
  | .leave hv _ => by rw [Stmt.bare, Stmt.bare, map_bare_eq hv]

theorem Stmt.AllAlike.bares_eq {ss ss' : List Stmt} : Stmt.AllAlike R ss ss' → Stmt.bares ss = Stmt.bares ss'
  | .nil => rfl
  | .cons h hs => by rw [Stmt.bares, Stmt.bares, h.bare_eq, hs.bares_eq]

end

/-! ## Related spans -/

mutual

theorem Expr.Alike.of_mem {e e' : Expr} : Expr.Alike R e e' → ∀ s ∈ e.spans, ∃ s', R s s'
  | .literal h => by simpa [Expr.spans] using ⟨_, h⟩
  | .name h => by simpa [Expr.spans] using ⟨_, h⟩
  | .assign hv h => by simpa [Expr.spans] using ⟨⟨_, h⟩, hv.of_mem⟩
  | .binary hl hr h => by simpa [Expr.spans, or_imp, forall_and] using ⟨⟨_, h⟩, hl.of_mem, hr.of_mem⟩
  | .logical hl hr h => by simpa [Expr.spans, or_imp, forall_and] using ⟨⟨_, h⟩, hl.of_mem, hr.of_mem⟩
  | .unary ho h => by simpa [Expr.spans] using ⟨⟨_, h⟩, ho.of_mem⟩
  | .call hc ha h => by simpa [Expr.spans, or_imp, forall_and] using ⟨⟨_, h⟩, hc.of_mem, ha.of_mem⟩
  | .group hi h => by simpa [Expr.spans] using ⟨⟨_, h⟩, hi.of_mem⟩
  | .array hi h => by simpa [Expr.spans] using ⟨⟨_, h⟩, hi.of_mem⟩
  | .property ho h => by simpa [Expr.spans] using ⟨⟨_, h⟩, ho.of_mem⟩
  | .element ho hi h => by simpa [Expr.spans, or_imp, forall_and] using ⟨⟨_, h⟩, ho.of_mem, hi.of_mem⟩
  | .setProperty ho hv h => by simpa [Expr.spans, or_imp, forall_and] using ⟨⟨_, h⟩, ho.of_mem, hv.of_mem⟩
  | .setElement ho hi hv h => by
    simpa [Expr.spans, or_imp, forall_and] using ⟨⟨_, h⟩, ho.of_mem, hi.of_mem, hv.of_mem⟩

theorem Expr.AllAlike.of_mem {es es' : List Expr} : Expr.AllAlike R es es' → ∀ s ∈ Expr.spansOf es, ∃ s', R s s'
  | .nil => by simp [Expr.spansOf]
  | .cons h hs => by simpa [Expr.spansOf, or_imp, forall_and] using ⟨h.of_mem, hs.of_mem⟩

end

theorem Expr.Alike.of_mem_option {e e' : Option Expr} (h : Option.Rel (Expr.Alike R) e e') :
    ∀ s ∈ Expr.spansOf e.toList, ∃ s', R s s' := by
  cases h with
  | none => simp [Expr.spansOf]
  | some h => simpa [Expr.spansOf] using h.of_mem

mutual

theorem Stmt.Alike.of_mem {s s' : Stmt} : Stmt.Alike R s s' → ∀ x ∈ s.spans, ∃ x', R x x'
  | .expr he h => by simpa [Stmt.spans] using ⟨⟨_, h⟩, he.of_mem⟩
  | .print he h => by simpa [Stmt.spans] using ⟨⟨_, h⟩, he.of_mem⟩
  | .input hp h => by simpa [Stmt.spans] using ⟨⟨_, h⟩, Expr.Alike.of_mem_option hp⟩
  | .assign hv h => by simpa [Stmt.spans] using ⟨⟨_, h⟩, hv.of_mem⟩
  | .block hb h => by simpa [Stmt.spans] using ⟨⟨_, h⟩, hb.of_mem⟩
  | .branch hc hy h => by simpa [Stmt.spans, or_imp, forall_and] using ⟨⟨_, h⟩, hc.of_mem, hy.of_mem⟩
  | .choice hc hy hn h => by
    simpa [Stmt.spans, or_imp, forall_and] using ⟨⟨_, h⟩, hc.of_mem, hy.of_mem, hn.of_mem⟩
  | .loop hc hb h => by simpa [Stmt.spans, or_imp, forall_and] using ⟨⟨_, h⟩, hc.of_mem, hb.of_mem⟩
  | .function hb h => by simpa [Stmt.spans] using ⟨⟨_, h⟩, hb.of_mem⟩
  | .leave hv h => by simpa [Stmt.spans] using ⟨⟨_, h⟩, Expr.Alike.of_mem_option hv⟩

theorem Stmt.AllAlike.of_mem {ss ss' : List Stmt} : Stmt.AllAlike R ss ss' → ∀ x ∈ Stmt.spansOf ss, ∃ x', R x x'
  | .nil => by simp [Stmt.spansOf]
  | .cons h hs => by simpa [Stmt.spansOf, or_imp, forall_and] using ⟨h.of_mem, hs.of_mem⟩

end

end StepScript
