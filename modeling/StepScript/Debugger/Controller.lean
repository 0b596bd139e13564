import StepScript.Debugger.Snapshot
import StepScript.Debugger.Stepper
import StepScript.Machine.Weight
import StepScript.Session

/-!
# Debug sessions

A controller takes one program after the other through a debug session. Between commands a session is
paused at a statement or waits for a line; a command sets it going, and it goes on until it comes to rest
again or ends.

- `start`, `resume`, `provideInput` and `stop` are the commands; one that does not fit the state is refused
  and changes nothing;
- `tick` is one step of a session that is going, `settle` lets it come to rest;
- `interrupt` tells the run of a session to stop, `conclude` waits for its end, `lose` gives the session up;
- `debug`, `step` and `input` are the commands with the rest that follows.
-/

namespace StepScript.Debugger

/-- How a controller stands. -/
inductive State where
  | idle
  /-- A session was started and has not come to its first rest. -/
  | preparing
  | paused
  | running
  | completed
  | stopped
deriving DecidableEq

/-- The name of a state. -/
def State.name : State → String
  | idle => "idle"
  | preparing => "preparing"
  | paused => "paused"
  | running => "running"
  | completed => "completed"
  | stopped => "stopped"

/-- Whether a session has started and not ended. -/
@[simp] def State.isOpen (s : State) : Bool := s == .preparing || s == .paused || s == .running

/-- The commands that need a fitting state. -/
inductive Command where
  | start
  | step (mode : StepMode)
  | input
deriving DecidableEq

/-- The words for a command. -/
def Command.words : Command → String
  | start => "start a session"
  | step .into => "step into"
  | step .over => "step over"
  | step .out => "step out"
  | step .onward => "continue"
  | input => "provide input"

/-- A command that does not fit the state. -/
structure InvalidState where
  command : Command
  state : State
deriving DecidableEq

/-- Why a command was refused. -/
def InvalidState.message (e : InvalidState) : String :=
  "cannot " ++ e.command.words ++ " while the session is " ++ e.state.name

/-- What the host's view of the source is told. -/
inductive ViewCall where
  | highlight (line : Nat)
  | snapshot (s : Snapshot)
  | clear
deriving DecidableEq

/-- Where the output of a session goes: what an event does to the console, and whether the run is told to
stop at that moment. -/
structure Sink (κ : Type) where
  see : κ → Event → κ × Bool

/-- The observer of a session: the stepper is its hook, and reads are left open. -/
def observer {κ : Type} (sink : Sink κ) : Observer (Stepper × κ) where
  see := fun (stepper, console) m event =>
    match event with
    | .visit line =>
      let (stepper, verdict) := Stepper.hook.before stepper m line
      ((stepper, console), verdict)
    | .lap => ((Stepper.hook.lap stepper, console), .proceed)
    | event =>
      let (console, stop) := sink.see console event
      ((stepper, console), ⟨stop, .proceed⟩)
  ask := fun s _ => (s, none)

/-- The failure of a run that was told to stop. -/
def halted : Diagnostic := ⟨.halted, none, none⟩

/-- The observer of a session that its controller has told to stop and waits for: where the stepper would hold the run
it finds that order and refuses, and a read is cancelled. -/
def closing {κ : Type} (sink : Sink κ) : Observer (Stepper × κ) where
  see := fun s m event =>
    let (s, verdict) := (observer sink).see s m event
    match verdict.course with
    | .hold => (s, ⟨verdict.stop, .refuse halted⟩)
    | _ => (s, verdict)
  ask := fun s _ => (s, some .cancelled)

/-- A session that has not ended. -/
structure Live where
  machine : Machine
  stepper : Stepper

/-- A controller, with the console of its latest session and what its view was told since it was last
asked. -/
structure Controller (κ : Type) where
  registry : Registry
  config : Config
  sink : Sink κ
  state : State
  live : Option Live
  console : Option κ
  snapshot : Option Snapshot
  /-- The prompt of the read that the program waits with. -/
  prompt : Option String
  /-- The failure that ended the latest session. -/
  lastError : Option Diagnostic
  /-- The lines that the view has breakpoints on. -/
  breakpoints : List Nat
  view : Array ViewCall
  /-- Without a session no prompt is pending. -/
  unasked : state.isOpen = false → prompt = none

namespace Controller

variable {κ : Type}

/-- A controller that has seen no session. -/
def new (registry : Registry) (config : Config) (sink : Sink κ) (breakpoints : List Nat) :
    Controller κ :=
  { registry, config, sink, breakpoints
    state := .idle, live := none, console := none, snapshot := none, prompt := none, lastError := none
    view := #[], unasked := fun _ => rfl }

/-- Tells the view something. -/
def tell (c : Controller κ) (call : ViewCall) : Controller κ := { c with view := c.view.push call }

/-- Whether a session is going. -/
def isGoing (c : Controller κ) : Bool :=
  c.live.isSome && c.console.isSome && c.prompt.isNone &&
    (c.state == .preparing || c.state == .running)

/-- Whether a session has started and not ended. -/
def isOpen (c : Controller κ) : Bool := c.state.isOpen

/-- Takes down the outcome of a run. A run that was stopped leaves no failure behind. -/
def record (c : Controller κ) : Except Diagnostic Unit → Controller κ
  | .ok () => { c with prompt := none, state := .completed, unasked := fun _ => rfl }
  | .error d =>
    if d.isHalt then { c with prompt := none, state := .stopped, unasked := fun _ => rfl }
    else { c with prompt := none, state := .stopped, lastError := some d, unasked := fun _ => rfl }

section Record

variable (c : Controller κ) (outcome : Except Diagnostic Unit)

/-- What is taken down of an outcome: no prompt is left, and the state says how the run ended. -/
theorem record_eq : ∃ (state : State) (lastError : Option Diagnostic) (unasked : state.isOpen = false → none = none),
    c.record outcome = { c with prompt := none, state := state, lastError := lastError, unasked := unasked } ∧
      (state = .completed ∧ lastError = c.lastError ∨ state = .stopped) := by
  cases outcome with
  | ok u => exact ⟨_, _, fun _ => rfl, rfl, .inl ⟨rfl, rfl⟩⟩
  | error d =>
    unfold record
    dsimp only
    split <;> exact ⟨_, _, fun _ => rfl, rfl, .inr rfl⟩

@[simp] theorem record_console : (c.record outcome).console = c.console := by
  obtain ⟨_, _, _, h, -⟩ := c.record_eq outcome
  rw [h]

@[simp] theorem record_view : (c.record outcome).view = c.view := by
  obtain ⟨_, _, _, h, -⟩ := c.record_eq outcome
  rw [h]

@[simp] theorem record_breakpoints : (c.record outcome).breakpoints = c.breakpoints := by
  obtain ⟨_, _, _, h, -⟩ := c.record_eq outcome
  rw [h]

/-- A run that was stopped leaves no failure behind. -/
theorem record_of_halt {d : Diagnostic} (h : d.isHalt = true) :
    c.record (.error d) = { c with prompt := none, state := .stopped, unasked := fun _ => rfl } := if_pos h

theorem record_of_failure {d : Diagnostic} (h : d.isHalt = false) : c.record (.error d) =
    { c with prompt := none, state := .stopped, lastError := some d, unasked := fun _ => rfl } :=
  if_neg (Bool.eq_false_iff.1 h)

end Record

/-- Ends the session with the outcome of its run. -/
def finish (c : Controller κ) (outcome : Except Diagnostic Unit) : Controller κ :=
  { c.record outcome with live := none }.tell .clear

/-- Comes to rest: the run ended, waits for a line, or was held before a statement. -/
def rest (c : Controller κ) (stepper : Stepper) (m : Machine) : Controller κ :=
  match m.finished? with
  | some (.ok _) => c.finish (.ok ())
  | some (.error d) => c.finish (.error d)
  | none =>
    let c := { c with live := some ⟨m, stepper⟩ }
    match m.waiting? with
    | some prompt => { c with prompt := some prompt, state := .running, unasked := fun h => by cases h }
    | none =>
      let snapshot := Snapshot.capture m ((stepper.lastSeen.map Prod.fst).getD 0)
      let c := (c.tell (.highlight snapshot.line)).tell (.snapshot snapshot)
      { c with snapshot := some snapshot, state := .paused, unasked := fun h => by cases h }

/-- One step of a session that is going. -/
def tick (c : Controller κ) : Controller κ :=
  if c.isGoing then
    match c with
    | ⟨registry, config, sink, state, some ⟨m, stepper⟩, some console, snapshot, prompt, lastError,
        breakpoints, view, unasked⟩ =>
      match m.advance (observer sink) (stepper, console) with
      | .going (stepper, console) m =>
        ⟨registry, config, sink, state, some ⟨m, stepper⟩, some console, snapshot, prompt, lastError,
          breakpoints, view, unasked⟩
      | .resting (stepper, console) m =>
        rest ⟨registry, config, sink, state, none, some console, snapshot, prompt, lastError,
          breakpoints, view, unasked⟩ stepper m
    | c => c
  else c

/-- Lets a session come to rest within so many steps. -/
def settle : Nat → Controller κ → Option (Controller κ)
  | 0, c => if c.isGoing then none else some c
  | fuel + 1, c => if c.isGoing then settle fuel c.tick else some c

/-- Tells the run of the open session to stop. A read that is waited for is cancelled, a run that is held before a
statement fails there, and one that is going ends at its next statement or read. -/
def interrupt (c : Controller κ) : Controller κ :=
  match c.live with
  | none => c
  | some live =>
    let m := live.machine.stop
    let m :=
      if m.waiting?.isSome then m.answer .cancelled
      else if c.isGoing then m
      else m.refuse halted
    { c with live := some { live with machine := m } }

/-- Waits for the end of a run that was told to stop, and takes down its outcome. Such a run makes no more steps than
it weighs. -/
def conclude (c : Controller κ) : Controller κ :=
  match c.live, c.console with
  | some ⟨m, stepper⟩, some console =>
    match m.run (closing c.sink) (m.weight + 1) (stepper, console) with
    | some ((_, console), m) =>
      match m.finished? with
      | some result => { c with console := some console }.record (result.map fun _ => ())
      | none => c
    | none => c
  | _, _ => c

/-- Gives up the session: nothing is left of it but that it was stopped. -/
def lose (c : Controller κ) : Controller κ :=
  { c with live := none, prompt := none, state := .stopped, unasked := fun _ => rfl }

/-! ## Commands -/

/-- Starts a session with a text. A text that does not compile ends it at once. Without a seed the program draws its
random numbers from `entropy`. -/
def start (c : Controller κ) (source : String) (console : κ) (entropy : Random) :
    Except InvalidState (Controller κ) :=
  if c.isOpen then .error ⟨.start, c.state⟩
  else
    let c := { c with
      live := none, snapshot := none, lastError := none, console := some console, state := .preparing
      unasked := fun h => by cases h }
    match compile source with
    | .error d => .ok (c.finish (.error d))
    | .ok program =>
      let m := (c.config.machine c.registry entropy).begin program
      .ok { c with live := some ⟨m, .initial⟩ }

/-- Sets a paused session going. The breakpoints are read from the view at this moment. -/
def resume (c : Controller κ) (mode : StepMode) : Except InvalidState (Controller κ) :=
  match c.state, c.live with
  | .paused, some live =>
    let stepper := live.stepper.order mode live.machine.depth c.breakpoints
    .ok { c.tell .clear with
      live := some { live with stepper := stepper }, state := .running, unasked := fun h => by cases h }
  | state, _ => .error ⟨.step mode, state⟩

/-- Gives the program the line that it waits for. -/
def provideInput (c : Controller κ) (line : String) : Except InvalidState (Controller κ) :=
  match c.prompt, c.live with
  | some _, some live =>
    .ok { c with
      prompt := none, live := some { live with machine := live.machine.answer (.line line) }, unasked := fun _ => rfl }
  | _, _ => .error ⟨.input, c.state⟩

/-- Ends the session, whatever its state: its run is told to stop, and its end is waited for. -/
def stop (c : Controller κ) : Controller κ := (c.interrupt.conclude.tell .clear).lose

/-- A command with the rest that follows: the state reached or the refusal, and the controller. -/
def complete (c : Controller κ) (fuel : Nat) :
    Except InvalidState (Controller κ) → Option (Except InvalidState State × Controller κ)
  | .error e => some (.error e, c)
  | .ok c =>
    match c.settle fuel with
    | some c => some (.ok c.state, c)
    | none => none

/-- Starts a session and lets it pause at its first statement. For a host that does not say what the system draws, it
draws the generator of seed 0. -/
def debug (c : Controller κ) (fuel : Nat) (source : String) (console : κ) (entropy : Random := .ofSeed 0) :
    Option (Except InvalidState State × Controller κ) :=
  c.complete fuel (c.start source console entropy)

/-- Takes a step. -/
def step (c : Controller κ) (fuel : Nat) (mode : StepMode) :
    Option (Except InvalidState State × Controller κ) :=
  c.complete fuel (c.resume mode)

/-- Answers a read. -/
def input (c : Controller κ) (fuel : Nat) (line : String) :
    Option (Except InvalidState State × Controller κ) :=
  c.complete fuel (c.provideInput line)

/-- What the view was told since it was last asked. -/
def takeView (c : Controller κ) : Array ViewCall × Controller κ := (c.view, { c with view := #[] })

end Controller

/-- A script as the console of a session; a line equal to `trip`, if there is one, stops the run. -/
def scriptSink (trip : Option String) : Sink Script where
  see := fun s event =>
    match event with
    | .write text => (s.write text, false)
    | .writeLine text => (s.writeLine text .output, trip == some text)
    | .clear => (s.clear, false)
    | _ => (s, false)

end StepScript.Debugger
