import StepScript.Proofs.Tree.Alike

/-!
# The nodes of a tree

Expressions and statements are the nodes of a program, and each has the parts that it is made of (`Node.parts`). The
nodes of a program are its statements and all parts of its nodes (`Node.In`).

A node is nested if the spans of its parts lie within its own, and its parts are nested (`Node.Nested`).
-/

namespace StepScript

/-- A span lies within another one. -/
def Span.Within (inner outer : Span) : Prop := outer.start ≤ inner.start ∧ inner.stop ≤ outer.stop

/-- A node of a program. -/
inductive Node where
  | expr (e : Expr)
  | stmt (s : Stmt)

/-- The expressions that an expression is made of. -/
def Expr.parts : Expr → List Expr
  | .literal _ _ => []
  | .name _ _ => []
  | .assign _ value _ => [value]
  | .binary _ left right _ => [left, right]
  | .logical _ left right _ => [left, right]
  | .unary _ operand _ => [operand]
  | .call callee args _ => callee :: args
  | .group inner _ => [inner]
  | .array items _ => items
  | .property object _ _ => [object]
  | .element object index _ => [object, index]
  | .setProperty object _ value _ => [object, value]
  | .setElement object index value _ => [object, index, value]

namespace Node

def span : Node → Span
  | expr e => e.span
  | stmt s => s.span

/-- The nodes that a node is made of; those of a function are the statements of its body. -/
def parts : Node → List Node
  | expr e => e.parts.map expr
  | stmt (.expr e _) => [expr e]
  | stmt (.print e _ _) => [expr e]
  | stmt (.input _ prompt _) => prompt.toList.map expr
  | stmt (.assign _ value _) => [expr value]
  | stmt (.block body _) => body.map stmt
  | stmt (.branch condition yes no _) => expr condition :: stmt yes :: no.toList.map stmt
  | stmt (.loop condition body _) => [expr condition, stmt body]
  | stmt (.function _ _ body _) => body.map stmt
  | stmt (.leave value _) => value.toList.map expr

/-- **The nodes of a program**: its statements, and the parts of its nodes. -/
inductive In (program : Program) : Node → Prop
  | top {s : Stmt} : s ∈ program → In program (stmt s)
  | part {node part : Node} : In program node → part ∈ node.parts → In program part

/-- Spans lie within each other as the nodes do. -/
inductive Nested : Node → Prop
  | intro {node : Node} : (∀ part ∈ node.parts, part.span.Within node.span) → (∀ part ∈ node.parts, Nested part) →
      Nested node

theorem In.nested {program : Program} {node : Node} (h : node.In program)
    (hp : ∀ s ∈ program, (stmt s).Nested) : node.Nested := by
  induction h with
  | top hs => exact hp _ hs
  | part _ hm ih => cases ih with | intro _ hparts => exact hparts _ hm

end Node

/-! ## Spans -/

theorem Expr.spansOf_eq (es : List Expr) : Expr.spansOf es = es.flatMap Expr.spans := by
  induction es with
  | nil => rfl
  | cons e es ih => rw [Expr.spansOf, ih, List.flatMap_cons]

theorem Stmt.spansOf_eq (ss : List Stmt) : Stmt.spansOf ss = ss.flatMap Stmt.spans := by
  induction ss with
  | nil => rfl
  | cons s ss ih => rw [Stmt.spansOf, ih, List.flatMap_cons]

namespace Node

/-- The spans of a node and of all that it is made of. -/
def spans : Node → List Span
  | expr e => e.spans
  | stmt s => s.spans

/-- They are its own span and those of its parts. -/
theorem spans_eq (node : Node) : node.spans = node.span :: node.parts.flatMap spans := by
  cases node with
  | expr e => cases e <;> simp [spans, span, parts, Expr.spans, Expr.span, Expr.parts, Expr.spansOf_eq, List.flatMap_map]
  | stmt s =>
    cases s with
    | branch condition yes no _ => cases no <;> simp [spans, span, parts, Stmt.spans, Stmt.span]
    | _ => simp [spans, span, parts, Stmt.spans, Stmt.span, Expr.spansOf_eq, Stmt.spansOf_eq, List.flatMap_map]

/-- The spans of a program are those of its nodes. -/
theorem In.span_mem {program : Program} {node : Node} (h : node.In program) : node.span ∈ Stmt.spansOf program := by
  have hall : node.spans ⊆ Stmt.spansOf program := by
    induction h with
    | top hs =>
      rw [Stmt.spansOf_eq]
      exact fun x hx => List.mem_flatMap.2 ⟨_, hs, hx⟩
    | part _ hm ih =>
      refine fun x hx => ih ?_
      rw [spans_eq]
      exact List.mem_cons_of_mem _ (List.mem_flatMap.2 ⟨_, hm, hx⟩)
  refine hall ?_
  rw [spans_eq]
  exact List.mem_cons_self

end Node

end StepScript
