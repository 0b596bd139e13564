import StepScript.Machine.Basic

/-!
# How long a stopped run can go on

In a machine that was told to stop every statement fails at once and every read is given up, so only expressions are
still evaluated. The weight of a machine counts those in its focus and in what is pending. The bodies of functions and
loops do not count, since their first statement is not carried out.
-/

namespace StepScript

mutual

/-- How much work an expression is, its calls of functions not entered. -/
def Expr.weight : Expr → Nat
  | .literal _ _ | .name _ _ => 1
  | .assign _ value _ => value.weight + 4
  | .binary _ left right _ => left.weight + right.weight + 5
  | .logical _ left right _ => left.weight + right.weight + 4
  | .unary _ operand _ => operand.weight + 4
  | .call callee args _ => callee.weight + Expr.weights args + 6
  | .group inner _ => inner.weight + 1
  | .array items _ => Expr.weights items + 3
  | .property object _ _ => object.weight + 4
  | .element object index _ => object.weight + index.weight + 5
  -- The value is never looked at: the assignment of a property fails before.
  | .setProperty object _ _ _ => object.weight + 4
  | .setElement object index value _ => object.weight + index.weight + value.weight + 6

/-- Expressions one after the other. -/
def Expr.weights : List Expr → Nat
  | [] => 0
  | e :: es => e.weight + 1 + Expr.weights es

end

/-- The expression that a statement begins with. -/
def Stmt.weight : Stmt → Nat
  | .expr e _ | .print e _ _ | .assign _ e _ | .branch e _ _ _ | .loop e _ _ => e.weight + 4
  | .input _ e _ | .leave e _ => Expr.weights e.toList + 4
  | .block _ _ | .function _ _ _ _ => 4

/-- What pending work has still to evaluate before it comes to a statement. -/
def Pending.weight : Pending → Nat
  | .again condition _ => condition.weight + 4
  | .right _ operand _ => operand.weight + 4
  | .logical _ operand => operand.weight + 3
  | .callee args _ | .argument _ _ args _ => Expr.weights args + 5
  | .item _ items => Expr.weights items + 3
  | .object position _ => position.weight + 4
  | .setObject position value _ => position.weight + value.weight + 5
  | .setIndex _ value _ => value.weight + 4
  | _ => 3

/-- The weight of all pending work. -/
def load : List Pending → Nat
  | [] => 0
  | w :: ws => w.weight + load ws

/-- What a focus adds to the pending work. A failure goes through all of it, and a statement fails. -/
def Focus.weight (pending : List Pending) : Focus → Nat
  | .fail _ => pending.length
  | .start _ => pending.length + 1
  | .exec s => s.weight + load pending
  | .eval e => e.weight + load pending
  | .apply _ _ _ => 4 + load pending
  | _ => load pending

/-- The steps that a machine which was stopped can still make. -/
def Machine.weight (m : Machine) : Nat := m.focus.weight m.pending

end StepScript
