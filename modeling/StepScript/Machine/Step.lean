import StepScript.Machine.Operators
import StepScript.Reply

/-!
# One step of the machine

A step looks at the focus and at the innermost piece of pending work. It changes the data only where a
statement, an operator or a builtin says so, and comes back with at most one event.

- `Machine.step` is the step;
- `Machine.answer` gives a waiting machine its line, `Machine.refuse` makes the statement that was just
  announced fail.
-/

namespace StepScript

namespace Machine

/-- The machine with another focus. -/
@[inline] def turn (m : Machine) (focus : Focus) : Machine := { m with focus := focus }

/-- The machine with another focus and one more piece of pending work. -/
@[inline] def push (m : Machine) (focus : Focus) (work : Pending) : Machine :=
  { m with focus := focus, pending := work :: m.pending }

/-- A failure at a place. -/
def raise (m : Machine) (span : Span) (f : RuntimeFault) : Machine := m.turn (.fail (.runtime span f))

/-- A value, or a failure at a place. -/
def settle (m : Machine) (span : Span) : Except RuntimeFault Value → Machine
  | .ok v => m.turn (.give v)
  | .error f => m.raise span f

/-- Begins a read: a run that was stopped reads nothing. -/
def request (m : Machine) (keep : Bool) (span : Span) (prompt : String) : Machine :=
  if m.stopped then m.turn (.fail (.halted span)) else m.push (.await prompt) (.reply keep span)

/-- Comes to a statement. -/
def startStatement (m : Machine) (s : Stmt) : Machine × Option Event :=
  if m.stopped then (m.turn (.fail (.halted s.span)), none)
  else if s.isBlock then (m.turn (.exec s), none)
  else (m.turn (.exec s), some (.visit s.line))

/-- Carries out a statement. -/
def execStatement (m : Machine) (s : Stmt) : Machine :=
  match s with
  | .expr e _ => m.push (.eval e) .discard
  | .print e newline _ => m.push (.eval e) (.write newline)
  | .input _ (some e) span => m.push (.eval e) (.prompt span)
  | .input _ none span => m.request false span defaultPrompt
  | .assign name value _ => m.push (.eval value) (.bind name)
  | .block body _ =>
    let outer := m.here
    (m.enter outer).push .done (.block outer body)
  | .branch condition yes no _ => m.push (.eval condition) (.choose yes no)
  | .loop condition body _ => m.push (.eval condition) (.test condition body)
  | .function name params body _ =>
    let here := m.here
    let (id, m) := (m.turn .done).withStore Store.newClosure
    m.mapStore (Store.mapScopes (Scopes.define · here name (.closure ⟨id, name, params, body, here⟩)))
  | .leave (some e) _ => m.push (.eval e) .returning
  | .leave none _ => m.turn (.leave .null)

/-- Evaluates an expression as far as its first part. -/
def evalExpression (m : Machine) (e : Expr) : Machine :=
  match e with
  | .literal value _ => m.turn (.give (.ofLiteral value))
  | .name name span =>
    match m.store.scopes.get? m.here name with
    | some v => m.turn (.give v)
    | none => m.raise span (.undefinedVariable name)
  | .assign name value _ => m.push (.eval value) (.assign name)
  | .binary op left right span => m.push (.eval left) (.right op right span)
  | .logical op left right _ => m.push (.eval left) (.logical op right)
  | .unary op operand span => m.push (.eval operand) (.unary op span)
  | .call callee args span => m.push (.eval callee) (.callee args span)
  | .group inner _ => m.turn (.eval inner)
  | .array [] _ =>
    let (v, m) := m.withStore (Store.newArray #[])
    m.turn (.give v)
  | .array (e :: rest) _ => m.push (.eval e) (.item [] rest)
  | .property object name span => m.push (.eval object) (.property name span)
  | .element object index span => m.push (.eval object) (.object index span)
  | .setProperty object name _ span => m.push (.eval object) (.setProperty name span)
  | .setElement object index value span => m.push (.eval object) (.setObject index value span)

/-- Enters a function with its parameters bound. -/
def enterFunction (m : Machine) (f : Closure) (args : List Value) (span : Span) : Machine :=
  let outer := m.here
  let m := m.enter f.home
  let frame := m.here
  let m := m.mapStore (Store.mapScopes fun scopes =>
    (f.params.zip args).foldl (fun scopes arg => scopes.define frame arg.1 arg.2) scopes)
  { m.push .done (.call outer f.body) with calls := m.calls.push ⟨f.name, span.line⟩ }

/-- Takes over the answer of a builtin. -/
def takeAnswer (m : Machine) (span : Span) : Answer → Machine × Option Event
  | .value v => (m.turn (.give v), none)
  | .write text => (m.turn (.give .null), some (.write text))
  | .writeLine text => (m.turn (.give .null), some (.writeLine text))
  | .clear => (m.turn (.give .null), some .clear)
  | .ask prompt => (m.request true span prompt, none)
  | .fault f => (m.raise span f, none)

/-- Runs a builtin. -/
def runBuiltin (m : Machine) (b : Builtin) (args : List Value) (span : Span) : Machine × Option Event :=
  let (answer, m) := m.withStore (b.run args)
  m.takeAnswer span answer

/-- Calls a value. -/
def applyValue (m : Machine) (callee : Value) (args : List Value) (span : Span) :
    Machine × Option Event :=
  match callee with
  | .native f =>
    match f.arity with
    | .fixed count =>
      if count = args.length then m.runBuiltin f.builtin args span
      else (m.raise span (.arity count args.length), none)
    | .variadic => m.runBuiltin f.builtin args span
  | .closure f =>
    if f.params.length ≠ args.length then (m.raise span (.arity f.params.length args.length), none)
    else if m.settings.maxCallDepth ≤ m.depth then
      (m.raise span (.callDepth m.settings.maxCallDepth), none)
    else (m.enterFunction f args span, none)
  | v => (m.raise span (.notCallable v.kind), none)

/-- Hands a value to pending work; the machine has that work off its list already. -/
def takeValue (m : Machine) (v : Value) : Pending → Machine × Option Event
  | .discard =>
    if m.depth == 0 && m.here == Store.globals then ({ m with focus := .done, latest := v }, none)
    else (m.turn .done, none)
  | .write true => (m.turn .done, some (.writeLine (v.display m.store)))
  | .write false => (m.turn .done, some (.write (v.display m.store)))
  | .prompt span => (m.request false span (v.display m.store), none)
  | .bind name => ((m.turn .done).assignVariable name v, none)
  | .choose yes no =>
    if v.truthy m.store then (m.turn (.start yes), none)
    else
      match no with
      | some s => (m.turn (.start s), none)
      | none => (m.turn .done, none)
  | .test condition body =>
    if v.truthy m.store then (m.push (.start body) (.again condition body), some .lap)
    else (m.turn .done, none)
  | .returning => (m.turn (.leave v), none)
  | .assign name => ((m.turn (.give v)).assignVariable name v, none)
  | .right op right span => (m.push (.eval right) (.combine op v span), none)
  | .combine op left span => (m.settle span (op.apply m.store left v), none)
  | .logical op right =>
    if op.settles m.store v then (m.turn (.give v), none) else (m.turn (.eval right), none)
  | .unary op span => (m.settle span (op.apply m.store v), none)
  | .callee [] span => (m.turn (.apply v [] span), none)
  | .callee (e :: rest) span => (m.push (.eval e) (.argument v [] rest span), none)
  | .argument callee before [] span => (m.turn (.apply callee (v :: before).reverse span), none)
  | .argument callee before (e :: rest) span =>
    (m.push (.eval e) (.argument callee (v :: before) rest span), none)
  | .item before [] =>
    let (w, m) := m.withStore (Store.newArray (v :: before).reverse.toArray)
    (m.turn (.give w), none)
  | .item before (e :: rest) => (m.push (.eval e) (.item (v :: before) rest), none)
  | .property name span => (m.settle span (readProperty m.store v name), none)
  | .object index span => (m.push (.eval index) (.index v span), none)
  | .index object span => (m.settle span (readElement m.store object v), none)
  | .setProperty name span =>
    match v with
    | .null => (m.raise span .assignToNull, none)
    | v => (m.raise span (.assignProperty name v.kind), none)
  | .setObject index value span =>
    match v with
    | .null => (m.raise span .assignToNull, none)
    | v => (m.push (.eval index) (.setIndex v value span), none)
  | .setIndex object value span => (m.push (.eval value) (.setValue object v span), none)
  | .setValue object index span =>
    match writePlace object index with
    | .ok (id, i) => ((m.turn (.give v)).mapStore (.mapItems id (Store.writeAt · i v)), none)
    | .error f => (m.raise span f, none)
  -- Statements hand over no value: these never meet one.
  | .reply _ _ | .block _ _ | .again _ _ | .call _ _ | .program _ _ => (m.turn (.give v), none)

/-- Goes on after a statement that ended; the machine has the pending work off its list already. -/
def afterStatement (m : Machine) : Pending → Machine
  | .block outer [] => { m with here := outer }
  | .block outer (s :: rest) => m.push (.start s) (.block outer rest)
  | .call outer [] => { m with focus := .give .null, here := outer, calls := m.calls.pop }
  | .call outer (s :: rest) => m.push (.start s) (.call outer rest)
  | .again condition body => m.push (.eval condition) (.test condition body)
  | .program index [] => { m with focus := .give m.latest, latest := .null, cursor := index }
  | .program index (s :: rest) =>
    { m.push (.start s) (.program (index + 1) rest) with cursor := index }
  | _ => m

/-- Goes outward with a value that a function returns. At the top level it ends the program. -/
def leaveThrough (m : Machine) (v : Value) : Pending → Machine
  | .block outer _ => { m with here := outer }
  | .call outer _ => { m with focus := .give v, here := outer, calls := m.calls.pop }
  | .program index rest =>
    { m with focus := .give m.latest, latest := .null, cursor := index + rest.length }
  | _ => m

/-- Goes outward with a failure. -/
def failThrough (m : Machine) : Pending → Machine
  | .block outer _ => { m with here := outer }
  | .call outer _ => { m with here := outer, calls := m.calls.pop }
  | _ => m

/-- One step. A machine that has finished or waits for a line stays as it is. -/
def step (m : Machine) : Machine × Option Event :=
  match m.focus with
  | .start s => m.startStatement s
  | .exec s => (m.execStatement s, none)
  | .eval e => (m.evalExpression e, none)
  | .apply callee args span => m.applyValue callee args span
  | .await _ => (m, none)
  | .give v =>
    match m.pending with
    | [] => (m, none)
    | work :: rest => ({ m with pending := rest } : Machine).takeValue v work
  | .done =>
    match m.pending with
    | [] => (m, none)
    | work :: rest => (({ m with pending := rest } : Machine).afterStatement work, none)
  | .leave v =>
    match m.pending with
    | [] => (m, none)
    | work :: rest => (({ m with pending := rest } : Machine).leaveThrough v work, none)
  | .fail _ =>
    match m.pending with
    | [] => (m, none)
    | work :: rest => (({ m with pending := rest } : Machine).failThrough work, none)

/-- Gives a waiting machine what it waits for. A cancelled read ends the run. -/
def answer (m : Machine) (reply : Reply) : Machine :=
  match m.focus, m.pending with
  | .await _, .reply keep span :: rest =>
    let m := { m with pending := rest }
    match reply with
    | .line text => if keep then m.turn (.give (.text text)) else m.turn .done
    | .cancelled =>
      if m.stopped then m.turn (.fail (.halted span)) else m.turn (.fail (.inputCancelled span))
  | _, _ => m

/-- Makes the statement that was just announced fail. -/
def refuse (m : Machine) (d : Diagnostic) : Machine := m.turn (.fail d)

end Machine

end StepScript
