import StepScript.Debugger.Controller

/-!
# Handles of sessions

A session can be stopped from outside, at any moment and whatever its controller is doing: its host takes a
handle of it and pulls the handle later. Every session is started with a stop flag of its own, which its handles
share; the run looks at the flag of its session and at no other, and the controller hears of the stop when the
run ends.

- `Deed` is what a host does with its controller, `Controller.take` what it comes to at once;
- `Desk` is a controller with the flags of its sessions so far; `Desk.handle?` gives out a handle of the open
  session, `Desk.pull` pulls a handle;
- `Desk.turn` is a deed with the rest that follows, while handles are pulled. A command that is sent to a run
  which has left already finds nobody (`DebugError.workerLost`), and the session is given up
  (`Controller.lose`).
-/

namespace StepScript.Debugger

variable {κ : Type}

/-! ## What a host does -/

/-- What the host of a controller does. -/
inductive Deed (κ : Type) where
  /-- Without a seed the program draws its random numbers from `entropy`. -/
  | debug (source : String) (console : κ) (entropy : Random)
  | step (mode : StepMode)
  | input (line : String)
  | stop
  | breakpoints (lines : List Nat)

/-- Whether a deed is sent to a run that is going on. -/
def Deed.isSent : Deed κ → Bool
  | step _ | input _ => true
  | debug _ _ _ | stop | breakpoints _ => false

namespace Controller

/-- A deed, without what follows. -/
def take (c : Controller κ) : Deed κ → Except InvalidState (Controller κ)
  | .debug source console entropy => c.start source console entropy
  | .step mode => c.resume mode
  | .input line => c.provideInput line
  | .stop => .ok c.stop
  | .breakpoints lines => .ok { c with breakpoints := lines }

end Controller

/-- Why a command brings no state. -/
inductive DebugError where
  | invalid (e : InvalidState)
  /-- The run had left before the command reached it. -/
  | workerLost
deriving DecidableEq

/-- The words for an error. -/
def DebugError.message : DebugError → String
  | invalid e => e.message
  | workerLost => "debug worker exited unexpectedly"

/-! ## Handles -/

/-- A handle of a session: the number of the flag that it shares with the session. -/
structure Handle where
  flag : Nat
deriving DecidableEq

/-- A controller and the stop flags of its sessions. -/
structure Desk (κ : Type) where
  controller : Controller κ
  /-- One flag for each session so far. -/
  flags : List Bool
  /-- The flag of the latest session. -/
  own : Nat

/-- A deed, in a session that may take so many steps, and the handles that are pulled. -/
structure Turn (κ : Type) where
  deed : Deed κ
  fuel : Nat
  /-- The handles that are pulled before the deed. -/
  before : List Handle
  /-- The handles that are pulled before the step that leaves so many steps to be made. -/
  amid : Nat → List Handle
  /-- Whether a run that was told to stop before the deed has left by now. -/
  departed : Bool

namespace Desk

/-- A controller that has seen no session. -/
def new (registry : Registry) (config : Config) (sink : Sink κ) (breakpoints : List Nat) : Desk κ :=
  ⟨.new registry config sink breakpoints, [], 0⟩

/-- The handle of the open session. -/
def handle? (d : Desk κ) : Option Handle :=
  if d.controller.live.isSome then some ⟨d.own⟩ else none

/-- Whether the flag of the latest session is set. -/
def told (d : Desk κ) : Bool := d.flags[d.own]? == some true

/-- Sets the flag of a handle. -/
def mark (d : Desk κ) (h : Handle) : Desk κ := { d with flags := d.flags.set h.flag true }

/-- Pulls a handle: sets its flag. The latest session is roused if it is its flag that went up. -/
def pull (d : Desk κ) (h : Handle) : Desk κ :=
  let marked := d.mark h
  if marked.told && !d.told then { marked with controller := d.controller.interrupt } else marked

/-- The desk after a deed that came to `c`: a session is started with a flag of its own, and to stop one is to set its
flag. -/
def accept (d : Desk κ) (c : Controller κ) : Deed κ → Desk κ
  | .debug _ _ _ => ⟨c, d.flags ++ [false], d.flags.length⟩
  | .stop =>
    match d.handle? with
    | some h => { d.mark h with controller := c }
    | none => { d with controller := c }
  | _ => { d with controller := c }

/-- Lets a session come to rest within so many steps, while handles are pulled. -/
def settle (amid : Nat → List Handle) : Nat → Desk κ → Desk κ
  | 0, d => d
  | fuel + 1, d =>
    if d.controller.isGoing then
      let d := (amid fuel).foldl pull d
      settle amid fuel { d with controller := d.controller.tick }
    else d

/-- What a deed comes to, unless it is still going on. -/
def reply? (d : Desk κ) : Option (Except DebugError State) :=
  if d.controller.isGoing then none else some (.ok d.controller.state)

/-- A deed with the rest that follows: what came of it, unless it is still going on, and how the controller stands. -/
def respond (d : Desk κ) (t : Turn κ) : Option (Except DebugError State) × Desk κ :=
  match d.controller.take t.deed with
  | .error e => (some (.error (.invalid e)), d)
  | .ok c =>
    if t.deed.isSent && d.told && t.departed then
      (some (.error .workerLost), { d with controller := c.lose })
    else
      let d := settle t.amid t.fuel (d.accept c t.deed)
      (d.reply?, d)

/-- One turn: the handles that come first, and the deed. -/
def turn (d : Desk κ) (t : Turn κ) : Option (Except DebugError State) × Desk κ := (t.before.foldl pull d).respond t

end Desk

end StepScript.Debugger
