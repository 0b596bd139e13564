import StepScript.Console.Severity
import StepScript.Reply

/-!
# A console at the end of a channel

Two queues lie between a program and its host: events go out, replies come in. Each end can be given up on
its own. A read reports its prompt and then takes the oldest reply; with none queued it blocks as long as
someone can still send one, and is cancelled after that.

A stop switch can be linked to the channel, so that pulling it also cancels a read.
-/

namespace StepScript

/-- What a channel console reports to its host. -/
inductive ConsoleEvent where
  | write (text : String)
  | line (text : String) (severity : Severity)
  | prompt (text : String)
  | clear
deriving DecidableEq

/-- The two queues and which of their ends exist. -/
structure Channel where
  /-- Events not yet taken by the host, the oldest first. -/
  events : Array ConsoleEvent
  /-- Replies not yet read, the oldest first. -/
  replies : List Reply
  /-- Whether the host still takes events. -/
  receiving : Bool
  /-- Whether the host can still send replies. -/
  sending : Bool
  /-- Whether the console still exists. -/
  connected : Bool

namespace Channel

/-- Empty queues with all ends. -/
def new : Channel := ⟨#[], [], true, true, true⟩

/-- Reports an event; without a receiver it is lost. -/
def emit (c : Channel) (e : ConsoleEvent) : Channel :=
  if c.receiving then
    match c with
    | ⟨events, replies, receiving, sending, connected⟩ =>
      ⟨events.push e, replies, receiving, sending, connected⟩
  else c

/-- Takes the reply to a read. Gives nothing while there is none and someone can still send one. -/
def receive (c : Channel) : Channel × Option Reply :=
  match c.replies with
  | reply :: rest => ({ c with replies := rest }, some reply)
  | [] => (c, if c.sending then none else some .cancelled)

/-- Reads a line: the prompt goes out first, and only then is a reply waited for. A read that blocks gives nothing;
it stays open, and is given its reply by `receive`. -/
def read (c : Channel) (prompt : String) : Channel × Option Reply := (c.emit (.prompt prompt)).receive

/-- Whether a read would block. -/
def blocks (c : Channel) : Bool := c.replies.isEmpty && c.sending

/-- Reads a line for someone who must not be held up: a read that would block is not begun. -/
def request (c : Channel) (prompt : String) : Channel × Option Reply :=
  if c.blocks then (c, none) else c.read prompt

/-- Queues a reply, if there is a sender; says whether the console still exists. -/
def send (c : Channel) (reply : Reply) : Channel × Option Bool :=
  if c.sending then
    if c.connected then ({ c with replies := c.replies ++ [reply] }, some true) else (c, some false)
  else (c, none)

/-- The events so far, if there is a receiver; they are taken off the queue. -/
def drain (c : Channel) : Channel × Option (Array ConsoleEvent) :=
  if c.receiving then ({ c with events := #[] }, some c.events) else (c, none)

/-- Gives up the sender. -/
def dropSender (c : Channel) : Channel := { c with sending := false }

/-- Gives up the receiver of events. -/
def dropReceiver (c : Channel) : Channel := { c with events := #[], receiving := false }

/-- Gives up the console, with the replies that it has not read. -/
def dropConsole (c : Channel) : Channel := { c with replies := [], connected := false }

end Channel

/-- A switch that stops a run, and may cancel reads on a channel. -/
structure StopSwitch where
  pulled : Bool
  linked : Bool

namespace StopSwitch

/-- Not pulled and not linked. -/
def new : StopSwitch := ⟨false, false⟩

/-- Links the switch to a channel that has a sender. -/
def link (s : StopSwitch) (c : Channel) : StopSwitch := { s with linked := s.linked || c.sending }

/-- Unlinks the switch. -/
def unlink (s : StopSwitch) : StopSwitch := { s with linked := false }

/-- Pulls the switch. -/
def pull (s : StopSwitch) (c : Channel) : StopSwitch × Channel :=
  ({ s with pulled := true }, if s.linked then (c.send .cancelled).1 else c)

/-- The switch on one line. -/
def describe (s : StopSwitch) : String :=
  let flag (b : Bool) : String := if b then "true" else "false"
  "StopHandle \x7b stopped: " ++ flag s.pulled ++ ", cancels_input: " ++ flag s.linked ++ " \x7d"

end StopSwitch

end StepScript
