import StepScript.Calls
import StepScript.Diagnostic
import StepScript.Registry

/-!
# The machine that runs programs

A run is a sequence of small steps of a machine. The machine holds what it is about to do (`Focus`), what is
to be done after that (`Pending`, the innermost first), and the data of the program. It knows no console and
no debugger: whatever concerns the outside shows as an event of a step or as a wait for a line, so the same
run can be watched, held and answered from outside.

- `Machine` is the state;
- `Machine.begin`, `Machine.invoke` put it to work;
- `Machine.finished?` and `Machine.waiting?` tell when it has no step to make.
-/

namespace StepScript

/-- Where a variable is made that no frame defines. -/
inductive AssignScope where
  /-- In the current frame, so that it ends with its block. -/
  | current
  /-- In the global frame. -/
  | global
deriving DecidableEq

/-- What a run goes by. -/
structure Settings where
  registry : Registry
  maxCallDepth : Nat
  assignScope : AssignScope

/-- So many calls may be in progress unless another limit is set. -/
def defaultMaxCallDepth : Nat := 1000

/-- What the machine is about to do. -/
inductive Focus where
  /-- Come to a statement: see whether the run was stopped, and announce it. -/
  | start (s : Stmt)
  /-- Carry out a statement that was announced. -/
  | exec (s : Stmt)
  | eval (e : Expr)
  | apply (callee : Value) (args : List Value) (span : Span)
  /-- Hand a value to what is pending. -/
  | give (v : Value)
  /-- A statement ended. -/
  | done
  /-- A function returns. -/
  | leave (v : Value)
  /-- A failure goes outward. -/
  | fail (d : Diagnostic)
  /-- Wait for a line, with a prompt. -/
  | await (prompt : String)

/-- What waits for the end of the present work. -/
inductive Pending where
  /-- The value of an expression statement. -/
  | discard
  | write (newline : Bool)
  /-- The prompt of an input statement. -/
  | prompt (span : Span)
  /-- The line of a read, kept as a value or thrown away. -/
  | reply (keep : Bool) (span : Span)
  /-- The value of an assignment statement. -/
  | bind (name : String)
  /-- The rest of a block, and the frame to come back to. -/
  | block (outer : FrameId) (rest : List Stmt)
  | choose (yes : Stmt) (no : Option Stmt)
  /-- The condition of a loop. -/
  | test (condition : Expr) (body : Stmt)
  /-- The body of a loop. -/
  | again (condition : Expr) (body : Stmt)
  | returning
  /-- The rest of a function body, and the frame to come back to. -/
  | call (outer : FrameId) (rest : List Stmt)
  /-- The rest of the program; `index` counts its statements so far. -/
  | program (index : Nat) (rest : List Stmt)
  /-- The value of an assignment expression. -/
  | assign (name : String)
  /-- The left operand of an operator. -/
  | right (op : BinaryOp) (right : Expr) (span : Span)
  /-- The right operand of an operator. -/
  | combine (op : BinaryOp) (left : Value) (span : Span)
  | logical (op : LogicalOp) (right : Expr)
  | unary (op : UnaryOp) (span : Span)
  | callee (args : List Expr) (span : Span)
  /-- An argument; the values before it are in reverse. -/
  | argument (callee : Value) (before : List Value) (rest : List Expr) (span : Span)
  /-- An element of an array; the values before it are in reverse. -/
  | item (before : List Value) (rest : List Expr)
  | property (name : String) (span : Span)
  /-- The object of an element that is read. -/
  | object (index : Expr) (span : Span)
  /-- The index of an element that is read. -/
  | index (object : Value) (span : Span)
  | setProperty (name : String) (span : Span)
  /-- The object of an element that is written. -/
  | setObject (index value : Expr) (span : Span)
  /-- The index of an element that is written. -/
  | setIndex (object : Value) (value : Expr) (span : Span)
  /-- The value of an element that is written. -/
  | setValue (object index : Value) (span : Span)

/-- The state of a run. -/
structure Machine where
  focus : Focus
  pending : List Pending
  /-- The current frame. -/
  here : FrameId
  calls : Calls
  store : Store
  /-- Whether the run was told to stop. -/
  stopped : Bool
  /-- The number of the top-level statement being carried out. -/
  cursor : Nat
  /-- The value of the latest top-level expression statement. -/
  latest : Value
  settings : Settings

/-- What a step shows to the outside. -/
inductive Event where
  /-- A statement other than a block is about to be carried out. -/
  | visit (line : Nat)
  /-- A loop is about to run its body. -/
  | lap
  | write (text : String)
  | writeLine (text : String)
  | clear
deriving DecidableEq

namespace Machine

/-- A machine at rest, with the registered names in its global frame. -/
def initial (settings : Settings) (random : Random) : Machine :=
  { focus := .done
    pending := []
    here := Store.globals
    calls := .none
    store := (Store.initial random).mapScopes (settings.registry.install · Store.globals)
    stopped := false
    cursor := 0
    latest := .null
    settings := settings }

/-- Sets out to run a program. -/
def begin (m : Machine) (p : Program) : Machine :=
  { m with focus := .done, pending := [.program 0 p], latest := .null }

/-- Sets out to call a value. -/
def invoke (m : Machine) (callee : Value) (args : List Value) (span : Span) : Machine :=
  { m with focus := .apply callee args span, pending := [] }

/-- How many calls are in progress. -/
def depth (m : Machine) : Nat := m.calls.depth

/-- Tells the run to stop. -/
def stop (m : Machine) : Machine := { m with stopped := true }

/-- The prompt that a machine waits with. -/
def waiting? (m : Machine) : Option String :=
  match m.focus with
  | .await prompt => some prompt
  | _ => none

/-- How the work ended, if it did: with a value, with null if there is none, or with a failure. -/
def finished? (m : Machine) : Option (Except Diagnostic Value) :=
  match m.pending, m.focus with
  | [], .give v => some (.ok v)
  | [], .leave v => some (.ok v)
  | [], .done => some (.ok .null)
  | [], .fail d => some (.error d)
  | _, _ => none

/-- Whether the work ended. -/
def isFinished (m : Machine) : Bool :=
  match m.pending, m.focus with
  | [], .give _ => true
  | [], .leave _ => true
  | [], .done => true
  | [], .fail _ => true
  | _, _ => false

theorem isFinished_eq (m : Machine) : m.isFinished = m.finished?.isSome := by
  unfold isFinished finished?
  split <;> rfl

/-- Whether a value in the current frame is a registered name that was left alone. -/
def isPristine (m : Machine) (entry : String × Value) : Bool :=
  match m.settings.registry.find? entry.1 with
  | some registration => registration.isPristine entry.2
  | none => false

/-- The names of the current frame in order, without the registered ones that were left alone. -/
def bindings (m : Machine) : List (String × Value) :=
  (m.store.scopes.slots m.here).sorted.filter fun e => !m.isPristine e

/-- Changes the data of the program. -/
@[inline] def mapStore (change : Store → Store) : Machine → Machine
  | ⟨focus, pending, here, calls, store, stopped, cursor, latest, settings⟩ =>
    ⟨focus, pending, here, calls, change store, stopped, cursor, latest, settings⟩

/-- Changes the data of the program and gets something in return. -/
@[inline] def withStore {α : Type} (change : Store → α × Store) : Machine → α × Machine
  | ⟨focus, pending, here, calls, store, stopped, cursor, latest, settings⟩ =>
    match change store with
    | (a, store) => (a, ⟨focus, pending, here, calls, store, stopped, cursor, latest, settings⟩)

/-- Gives a variable a value: where it is defined, or else where the settings say. -/
def assignVariable (m : Machine) (x : String) (v : Value) : Machine :=
  let target := match m.store.scopes.home? m.here x with
    | some f => f
    | none =>
      match m.settings.assignScope with
      | .current => m.here
      | .global => Store.globals
  m.mapStore (Store.mapScopes (Scopes.define · target x v))

/-- Enters a new frame inside `parent`. -/
def enter (m : Machine) (parent : FrameId) : Machine :=
  let frame := m.store.scopes.size
  { m.mapStore (Store.mapScopes (Scopes.child · parent)) with here := frame }

end Machine

end StepScript
