import StepScript.Tree

/-!
# Trees without their spans

`Expr.bare` and `Stmt.bare` forget where a tree stands in the text. Two trees with the same bare tree are the same
tree modulo spans.
-/

namespace StepScript

/-- The span of a tree that stands nowhere. -/
def Span.blank : Span := ⟨0, 0, 0⟩

mutual

/-- An expression without its spans. -/
def Expr.bare : Expr → Expr
  | .literal value _ => .literal value .blank
  | .name x _ => .name x .blank
  | .assign x value _ => .assign x value.bare .blank
  | .binary op left right _ => .binary op left.bare right.bare .blank
  | .logical op left right _ => .logical op left.bare right.bare .blank
  | .unary op operand _ => .unary op operand.bare .blank
  | .call callee args _ => .call callee.bare (Expr.bares args) .blank
  | .group inner _ => .group inner.bare .blank
  | .array items _ => .array (Expr.bares items) .blank
  | .property object x _ => .property object.bare x .blank
  | .element object index _ => .element object.bare index.bare .blank
  | .setProperty object x value _ => .setProperty object.bare x value.bare .blank
  | .setElement object index value _ => .setElement object.bare index.bare value.bare .blank

/-- Expressions without their spans. -/
def Expr.bares : List Expr → List Expr
  | [] => []
  | e :: es => e.bare :: Expr.bares es

end

mutual

/-- A statement without its spans. -/
def Stmt.bare : Stmt → Stmt
  | .expr e _ => .expr e.bare .blank
  | .print e newline _ => .print e.bare newline .blank
  | .input keyword prompt _ => .input keyword (prompt.map Expr.bare) .blank
  | .assign x value _ => .assign x value.bare .blank
  | .block body _ => .block (Stmt.bares body) .blank
  | .branch condition yes none _ => .branch condition.bare yes.bare none .blank
  | .branch condition yes (some no) _ => .branch condition.bare yes.bare (some no.bare) .blank
  | .loop condition body _ => .loop condition.bare body.bare .blank
  | .function x params body _ => .function x params (Stmt.bares body) .blank
  | .leave value _ => .leave (value.map Expr.bare) .blank

/-- Statements without their spans. -/
def Stmt.bares : List Stmt → List Stmt
  | [] => []
  | s :: ss => s.bare :: Stmt.bares ss

end

/-! ## What a bare tree tells -/

section Shapes

variable {e : Expr} {x : String}

theorem Expr.eq_name_of_bare {s : Span} (h : e.bare = (Expr.name x s).bare) : ∃ s', e = .name x s' := by
  cases e with
  | name y s' => cases h; exact ⟨s', rfl⟩
  | _ => cases h

theorem Expr.eq_property_of_bare {object : Expr} {s : Span} (h : e.bare = (Expr.property object x s).bare) :
    ∃ object' s', object'.bare = object.bare ∧ e = .property object' x s' := by
  cases e with
  | property object' y s' =>
    simp only [bare, Expr.property.injEq] at h
    obtain ⟨ho, rfl, -⟩ := h
    exact ⟨object', s', ho, rfl⟩
  | _ => cases h

theorem Expr.eq_element_of_bare {object index : Expr} {s : Span} (h : e.bare = (Expr.element object index s).bare) :
    ∃ object' index' s', object'.bare = object.bare ∧ index'.bare = index.bare ∧ e = .element object' index' s' := by
  cases e with
  | element object' index' s' =>
    simp only [bare, Expr.element.injEq] at h
    exact ⟨object', index', s', h.1, h.2.1, rfl⟩
  | _ => cases h

theorem Expr.eq_assign_of_bare {value : Expr} {s : Span} (h : e.bare = (Expr.assign x value s).bare) :
    ∃ value' s', value'.bare = value.bare ∧ e = .assign x value' s' := by
  cases e with
  | assign y value' s' =>
    simp only [bare, Expr.assign.injEq] at h
    obtain ⟨rfl, hv, -⟩ := h
    exact ⟨value', s', hv, rfl⟩
  | _ => cases h

end Shapes

end StepScript
