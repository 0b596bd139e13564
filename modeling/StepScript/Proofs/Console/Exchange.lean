import StepScript.Console.Channel

/-!
# A channel and those around it

A program, its host and a stop switch share a channel. `Exchange` puts the three together: the host holds a
sender of replies, the switch may hold another, and the channel is without a sender once neither does. A read reports
its prompt and looks for its reply; while there is none the program waits, and does nothing else until it looks again
and finds one.

* `Exchange.act` is one act of any of them; a history is a list of acts, the latest first.
* What ought to come through is read off the acts: `queued` from those that answer a read, `reported` from those that
  write, `outcome` is what a read ought to come to.
* Whether the program waits is told by the answers that it had (`waiting_after`), and which ends of the channel still
  exist by the acts that give them up (`ends_after`).
-/

namespace StepScript

namespace Channel

variable (c : Channel) (e : ConsoleEvent)

@[simp] theorem emit_replies : (c.emit e).replies = c.replies := by unfold emit; split <;> rfl

@[simp] theorem emit_receiving : (c.emit e).receiving = c.receiving := by unfold emit; split <;> rfl

@[simp] theorem emit_sending : (c.emit e).sending = c.sending := by unfold emit; split <;> rfl

@[simp] theorem emit_connected : (c.emit e).connected = c.connected := by unfold emit; split <;> rfl

theorem emit_events : (c.emit e).events = if c.receiving then c.events.push e else c.events := by
  unfold emit; split <;> rfl

/-- A read would block exactly where it finds no reply, its prompt being out. -/
theorem read_eq_none_iff (prompt : String) : (c.read prompt).2 = none ↔ c.blocks = true := by
  unfold read receive blocks
  rw [emit_replies, emit_sending]
  cases c.replies with
  | cons reply rest => exact iff_of_false nofun nofun
  | nil => cases c.sending <;> simp

end Channel

/-- Whether an event is the prompt of a read. -/
def ConsoleEvent.isPrompt : ConsoleEvent → Bool
  | prompt _ => true
  | write _ | line _ _ | clear => false

/-- What is done on a channel: by the program, by its host, or by whoever has the stop switch. -/
inductive Exchange.Act where
  | write (text : String)
  | writeLine (text : String) (severity : Severity)
  | clear
  | input (prompt : String)
  /-- The program, if it waits for a reply, looks for it again. -/
  | wake
  | sendLine (text : String)
  | cancel
  | link
  | unlink
  | stop
  | drain
  | dropSender
  | dropReceiver
  | dropConsole
deriving DecidableEq

/-- What an act brings back. -/
inductive Exchange.Answer where
  | nothing
  | read (reply : Reply)
  /-- There is no reply to a read yet. -/
  | blocked
  /-- The program waits for a reply and does nothing else. -/
  | busy
  | sent (alive : Bool)
  | drained (events : List ConsoleEvent)
deriving DecidableEq

/-- Whether an act is one that a program does, unless it waits. -/
def Exchange.Act.isProgram : Act → Bool
  | .write _ | .writeLine _ _ | .clear | .input _ | .dropConsole => true
  | _ => false

/-- The events that an act reports. -/
def Exchange.Act.events : Act → List ConsoleEvent
  | .write text => [.write text]
  | .writeLine text severity => [.line text severity]
  | .clear => [.clear]
  | .input prompt => [.prompt prompt]
  | _ => []

/-- The replies that an answer hands to the program. -/
def Exchange.Answer.replies : Answer → List Reply
  | .read reply => [reply]
  | _ => []

/-- The events that an answer hands to the host. -/
def Exchange.Answer.events : Answer → List ConsoleEvent
  | .drained events => events
  | _ => []

/-- Whether the program waits after an answer, if it did so `before` or not. -/
def Exchange.Answer.waits (before : Bool) : Answer → Bool
  | .blocked => true
  | .read _ => false
  | _ => before

/-- Whether an answer is about a read. -/
def Exchange.Answer.isOfRead : Answer → Bool
  | .read _ | .blocked => true
  | _ => false

/-- A channel with those around it. -/
structure Exchange where
  channel : Channel
  /-- Whether the host still holds its sender. -/
  held : Bool
  /-- The stop switch; linked, it holds a sender of its own. -/
  switch : StopSwitch
  /-- Whether the program waits for the reply to a read. -/
  waiting : Bool

namespace Exchange

/-- Nothing queued, all ends there, a switch that is not linked, and a program that does not wait. -/
def new : Exchange := ⟨.new, true, .new, false⟩

/-- The program reports an event; it can for as long as it has its console. -/
def report (x : Exchange) (e : ConsoleEvent) : Exchange :=
  if x.channel.connected then { x with channel := x.channel.emit e } else x

/-- A read has its reply, or the program waits. -/
def settleRead (x : Exchange) : Channel × Option Reply → Exchange × Answer
  | (channel, some reply) => ({ x with channel, waiting := false }, .read reply)
  | (channel, none) => ({ x with channel, waiting := true }, .blocked)

/-- The program reads a line. -/
def input (x : Exchange) (prompt : String) : Exchange × Answer :=
  if x.channel.connected then x.settleRead (x.channel.read prompt) else (x, .nothing)

/-- The program looks for the reply that it waits for. -/
def wake (x : Exchange) : Exchange × Answer :=
  if x.waiting then x.settleRead x.channel.receive else (x, .nothing)

/-- The host sends a reply with its sender. -/
def send (x : Exchange) (reply : Reply) : Exchange × Answer :=
  if x.held then
    match x.channel.send reply with
    | (channel, some alive) => ({ x with channel }, .sent alive)
    | (channel, none) => ({ x with channel }, .nothing)
  else (x, .nothing)

/-- The host takes the events. -/
def drain (x : Exchange) : Exchange × Answer :=
  match x.channel.drain with
  | (channel, some events) => ({ x with channel }, .drained events.toList)
  | (channel, none) => ({ x with channel }, .nothing)

/-- The host links the switch to the channel by its sender. -/
def link (x : Exchange) : Exchange := if x.held then { x with switch := x.switch.link x.channel } else x

/-- The switch is pulled. -/
def stop (x : Exchange) : Exchange :=
  { x with switch := (x.switch.pull x.channel).1, channel := (x.switch.pull x.channel).2 }

/-- With the last of the senders the channel loses its sender. -/
def settle (x : Exchange) : Exchange :=
  if x.held || x.switch.linked then x else { x with channel := x.channel.dropSender }

/-- One act, if it is done, with what it brings back. -/
def perform (x : Exchange) : Act → Exchange × Answer
  | .write text => (x.report (.write text), .nothing)
  | .writeLine text severity => (x.report (.line text severity), .nothing)
  | .clear => (x.report .clear, .nothing)
  | .input prompt => x.input prompt
  | .wake => x.wake
  | .sendLine text => x.send (.line text)
  | .cancel => x.send .cancelled
  | .link => (x.link, .nothing)
  | .unlink => (settle { x with switch := x.switch.unlink }, .nothing)
  | .stop => (x.stop, .nothing)
  | .drain => x.drain
  | .dropSender => (settle { x with held := false }, .nothing)
  | .dropReceiver => ({ x with channel := x.channel.dropReceiver }, .nothing)
  | .dropConsole => ({ x with channel := x.channel.dropConsole }, .nothing)

/-- One act, with what it brings back. A program that waits does nothing. -/
def act (x : Exchange) (a : Act) : Exchange × Answer := if x.waiting && a.isProgram then (x, .busy) else x.perform a

/-- Where a history leads; the latest act comes first. -/
def after : List Act → Exchange
  | [] => new
  | a :: past => ((after past).act a).1

/-- What an act brings back after a history. -/
def answer (past : List Act) (a : Act) : Answer := ((after past).act a).2

/-- The replies that the program has read, the oldest first. -/
def read : List Act → List Reply
  | [] => []
  | a :: past => read past ++ (answer past a).replies

/-- The events that the host has drained, the oldest first. -/
def drained : List Act → List ConsoleEvent
  | [] => []
  | a :: past => drained past ++ (answer past a).events

/-! ## What a history asks for -/

/-- A read has blocked and was not answered since. -/
def waits : List Act → Bool
  | [] => false
  | a :: past => (answer past a).waits (waits past)

/-- The program has not given up its console. -/
def present : List Act → Bool
  | [] => true
  | .dropConsole :: past => present past && waits past
  | _ :: past => present past

/-- The switch has a sender: it was linked by a host that had one, and not unlinked since. -/
def linked : List Act → Bool
  | [] => false
  | .link :: past => decide (.dropSender ∉ past) || linked past
  | .unlink :: _ => false
  | _ :: past => linked past

/-- Someone can still send a reply. -/
abbrev Attended (past : List Act) : Prop := .dropSender ∉ past ∨ linked past

/-- The replies that an act after `past` queues. A sender that is gone sends nothing, and a console that is gone
is sent nothing. -/
def replies (past : List Act) : Act → List Reply
  | .sendLine text => if .dropSender ∉ past ∧ present past then [.line text] else []
  | .cancel => if .dropSender ∉ past ∧ present past then [.cancelled] else []
  | .stop => if linked past ∧ present past then [.cancelled] else []
  | _ => []

/-- The replies queued by a history, the oldest first. -/
def queued : List Act → List Reply
  | [] => []
  | a :: past => queued past ++ replies past a

/-- Someone takes the events of a program that has its console and does not wait. -/
abbrev Heard (past : List Act) : Prop := (present past ∧ waits past = false) ∧ .dropReceiver ∉ past

/-- The events reported by a history while they were heard, the oldest first. -/
def reported : List Act → List ConsoleEvent
  | [] => []
  | a :: past => reported past ++ if Heard past then a.events else []

/-- What a read comes to: it takes the first of the queued replies that was not read yet. After the last of them it
blocks if someone can send another, and is cancelled if not. -/
def outcome (past : List Act) : Answer :=
  match (queued past)[(read past).length]? with
  | some reply => .read reply
  | none => if Attended past then .blocked else .read .cancelled

/-! ## Single acts -/

variable {past : List Act} {x y : Exchange} {prompt : String} {reply : Reply} {rest : List Reply}

theorem act_of_busy {a : Act} (hw : x.waiting = true) (ha : a.isProgram = true) : x.act a = (x, .busy) := by
  simp [act, hw, ha]

theorem act_of_host {a : Act} (ha : a.isProgram = false) : x.act a = x.perform a := by simp [act, ha]

theorem act_of_awake (hw : x.waiting = false) (a : Act) : x.act a = x.perform a := by simp [act, hw]

/-- The program looks for the reply to its read. -/
def look (x : Exchange) : Exchange × Answer := x.settleRead x.channel.receive

/-- A read reports its prompt and looks for its reply. -/
theorem input_of_present (hc : x.channel.connected = true) : x.input prompt = (x.report (.prompt prompt)).look := by
  unfold input look report Channel.read
  rw [if_pos hc, if_pos hc]
  cases (x.channel.emit (.prompt prompt)).receive with
  | mk channel reply => cases reply <;> rfl

theorem input_of_gone (hc : x.channel.connected = false) : x.input prompt = (x, .nothing) := by
  simp [input, hc]

theorem wake_of_waiting (hw : x.waiting = true) : x.wake = x.look := if_pos hw

theorem wake_of_awake (hw : x.waiting = false) : x.wake = (x, .nothing) := by simp [wake, hw]

theorem look_of_queued (hr : x.channel.replies = reply :: rest) :
    x.look = ({ x with channel := { x.channel with replies := rest }, waiting := false }, .read reply) := by
  simp [look, settleRead, Channel.receive, hr]

theorem look_of_attended (hr : x.channel.replies = []) (hs : x.channel.sending = true) :
    x.look = ({ x with waiting := true }, .blocked) := by
  simp [look, settleRead, Channel.receive, hr, hs]

theorem look_of_unattended (hr : x.channel.replies = []) (hs : x.channel.sending = false) :
    x.look = ({ x with waiting := false }, .read .cancelled) := by
  simp [look, settleRead, Channel.receive, hr, hs]

/-- A look finds a reply, or there is none yet, or there will be none. -/
theorem look_cases (x : Exchange) :
    (∃ reply rest, x.channel.replies = reply :: rest ∧
      x.look = ({ x with channel := { x.channel with replies := rest }, waiting := false }, .read reply)) ∨
    x.channel.replies = [] ∧ (x.channel.sending = true ∧ x.look = ({ x with waiting := true }, .blocked) ∨
      x.channel.sending = false ∧ x.look = ({ x with waiting := false }, .read .cancelled)) := by
  cases hr : x.channel.replies with
  | cons reply rest => exact .inl ⟨reply, rest, rfl, look_of_queued hr⟩
  | nil =>
    cases hs : x.channel.sending with
    | true => exact .inr ⟨rfl, .inl ⟨rfl, look_of_attended hr hs⟩⟩
    | false => exact .inr ⟨rfl, .inr ⟨rfl, look_of_unattended hr hs⟩⟩

/-- A reply at the end of the queue, if the console is there to read it. -/
def push (x : Exchange) (reply : Reply) : Exchange :=
  if x.channel.connected then { x with channel := { x.channel with replies := x.channel.replies ++ [reply] } } else x

theorem send_eq (hs : x.held = true → x.channel.sending = true) :
    x.send reply = if x.held then (x.push reply, .sent x.channel.connected) else (x, .nothing) := by
  obtain ⟨⟨events, replies, receiving, sending, connected⟩, held, switch, waiting⟩ := x
  cases held with
  | false => rfl
  | true =>
    obtain rfl : sending = true := hs rfl
    cases connected <;> rfl

theorem stop_eq (hs : x.switch.linked = true → x.channel.sending = true) :
    x.stop = { if x.switch.linked then x.push .cancelled else x with switch := { x.switch with pulled := true } } := by
  obtain ⟨⟨events, replies, receiving, sending, connected⟩, held, ⟨pulled, linked⟩, waiting⟩ := x
  cases linked with
  | false => rfl
  | true =>
    obtain rfl : sending = true := hs rfl
    cases connected <;> rfl

theorem link_eq (hs : x.held = true → x.channel.sending = true) :
    x.link = { x with switch := { x.switch with linked := x.held || x.switch.linked } } := by
  obtain ⟨⟨events, replies, receiving, sending, connected⟩, held, ⟨pulled, linked⟩, waiting⟩ := x
  cases held with
  | false => rfl
  | true =>
    obtain rfl : sending = true := hs rfl
    simp [link, StopSwitch.link]

/-! ## Waiting -/

@[simp] theorem report_waiting (x : Exchange) (e : ConsoleEvent) : (x.report e).waiting = x.waiting := by
  unfold report; split <;> rfl

@[simp] theorem settle_waiting (x : Exchange) : x.settle.waiting = x.waiting := by unfold settle; split <;> rfl

/-- An answer about anything else hands the program nothing, and lets it wait or not as before. -/
theorem Answer.of_other {answer : Answer} (h : answer.isOfRead = false) (before : Bool) :
    answer.replies = [] ∧ answer.waits before = before := by
  cases answer <;> first | exact ⟨rfl, rfl⟩ | cases h

/-- Only a read and the look for its reply are answered about a read, and only a read reports a prompt. -/
theorem perform_cases (x : Exchange) (a : Act) : (∃ prompt, a = .input prompt) ∨ a = .wake ∨
    (x.perform a).2.isOfRead = false ∧ (x.perform a).1.waiting = x.waiting ∧
      a.events.countP ConsoleEvent.isPrompt = 0 := by
  cases a with
  | input prompt => exact .inl ⟨prompt, rfl⟩
  | wake => exact .inr (.inl rfl)
  | sendLine | cancel =>
    simp only [perform, send]
    split
    · split <;> exact .inr (.inr ⟨rfl, rfl, rfl⟩)
    · exact .inr (.inr ⟨rfl, rfl, rfl⟩)
  | drain =>
    simp only [perform, drain]
    split <;> exact .inr (.inr ⟨rfl, rfl, rfl⟩)
  | link =>
    simp only [perform, link]
    split <;> exact .inr (.inr ⟨rfl, rfl, rfl⟩)
  | _ => simp [perform, stop, Answer.isOfRead, Act.events, ConsoleEvent.isPrompt]

theorem look_waiting (x : Exchange) (before : Bool) : x.look.1.waiting = x.look.2.waits before := by
  obtain ⟨reply, rest, -, h⟩ | ⟨-, ⟨-, h⟩ | ⟨-, h⟩⟩ := look_cases x <;> rw [h] <;> rfl

/-- An answer says whether the program waits. -/
theorem act_waiting (x : Exchange) (a : Act) : (x.act a).1.waiting = (x.act a).2.waits x.waiting := by
  unfold act
  split
  · rfl
  · obtain ⟨prompt, rfl⟩ | rfl | ⟨hother, hwaiting, -⟩ := perform_cases x a
    · rw [perform]
      cases hc : x.channel.connected with
      | true => rw [input_of_present hc]; exact look_waiting _ _
      | false => rw [input_of_gone hc]; rfl
    · rw [perform]
      cases hw : x.waiting with
      | true => rw [wake_of_waiting hw]; exact look_waiting _ _
      | false => rw [wake_of_awake hw]; exact hw
    · rw [hwaiting, (Answer.of_other hother _).2]

theorem waiting_after (past : List Act) : (after past).waiting = waits past := by
  induction past with
  | nil => rfl
  | cons a past ih => rw [after, waits, act_waiting, ih]; rfl

/-- An act is done, unless it is one of a program that waits. -/
theorem act_after (past : List Act) (a : Act) :
    (waits past = true ∧ a.isProgram = true ∧ (after past).act a = (after past, .busy)) ∨
      (a.isProgram = true → waits past = false) ∧ (after past).act a = (after past).perform a := by
  have hw := waiting_after past
  cases hp : a.isProgram with
  | false => exact .inr ⟨fun h => (by cases h), act_of_host hp⟩
  | true =>
    cases hwaits : waits past with
    | true => exact .inl ⟨rfl, rfl, act_of_busy (hw.trans hwaits) hp⟩
    | false => exact .inr ⟨fun _ => rfl, act_of_awake (hw.trans hwaits) a⟩

/-! ## The ends -/

/-- The same ends exist. -/
structure Alike (x y : Exchange) : Prop where
  connected : y.channel.connected = x.channel.connected
  receiving : y.channel.receiving = x.channel.receiving
  sending : y.channel.sending = x.channel.sending
  held : y.held = x.held
  switch : y.switch.linked = x.switch.linked

theorem Alike.refl (x : Exchange) : Alike x x := ⟨rfl, rfl, rfl, rfl, rfl⟩

theorem Alike.trans {z : Exchange} (h : Alike x y) (h' : Alike y z) : Alike x z :=
  ⟨h'.connected.trans h.connected, h'.receiving.trans h.receiving, h'.sending.trans h.sending, h'.held.trans h.held,
    h'.switch.trans h.switch⟩

theorem report_alike (x : Exchange) (e : ConsoleEvent) : Alike x (x.report e) := by
  unfold report
  split <;> constructor <;> simp

theorem look_alike (x : Exchange) : Alike x x.look.1 := by
  obtain ⟨reply, rest, -, h⟩ | ⟨-, ⟨-, h⟩ | ⟨-, h⟩⟩ := look_cases x <;> rw [h] <;> constructor <;> rfl

theorem input_alike (x : Exchange) (prompt : String) : Alike x (x.input prompt).1 := by
  cases hc : x.channel.connected with
  | false => rw [input_of_gone hc]; exact .refl x
  | true => rw [input_of_present hc]; exact (report_alike x _).trans (look_alike _)

theorem wake_alike (x : Exchange) : Alike x x.wake.1 := by
  cases hw : x.waiting with
  | false => rw [wake_of_awake hw]; exact .refl x
  | true => rw [wake_of_waiting hw]; exact look_alike x

theorem push_alike (x : Exchange) (reply : Reply) : Alike x (x.push reply) := by
  unfold push
  split <;> constructor <;> rfl

theorem drain_alike (x : Exchange) : Alike x x.drain.1 := by
  cases hr : x.channel.receiving <;> constructor <;> simp [drain, Channel.drain, hr]

/-- Which ends there are after a history is said by the acts that give them up. -/
structure Ends (past : List Act) (x : Exchange) : Prop where
  connected : x.channel.connected = present past
  receiving : x.channel.receiving = decide (.dropReceiver ∉ past)
  held : x.held = decide (.dropSender ∉ past)
  switch : x.switch.linked = linked past
  sending : x.channel.sending = decide (Attended past)

theorem Ends.sending_of_held (h : Ends past x) (hh : x.held = true) : x.channel.sending = true := by
  have := h.held.symm.trans hh
  simp_all [h.sending]

theorem Ends.sending_of_linked (h : Ends past x) (hl : x.switch.linked = true) : x.channel.sending = true := by
  have := h.switch.symm.trans hl
  simp_all [h.sending]

theorem Ends.send_alike (h : Ends past x) (reply : Reply) : Alike x (x.send reply).1 := by
  rw [send_eq h.sending_of_held]
  split
  · exact push_alike x reply
  · exact .refl x

theorem Ends.stop_alike (h : Ends past x) : Alike x x.stop := by
  rw [stop_eq h.sending_of_linked]
  split
  · obtain ⟨hc, hr, hs, hh, hl⟩ := push_alike x .cancelled
    exact ⟨hc, hr, hs, hh, rfl⟩
  · constructor <;> rfl

theorem Ends.settle (hc : x.channel.connected = present past)
    (hr : x.channel.receiving = decide (.dropReceiver ∉ past)) (hh : x.held = decide (.dropSender ∉ past))
    (hl : x.switch.linked = linked past) (hs : Attended past → x.channel.sending = true) :
    Ends past x.settle := by
  have hlast : (x.held || x.switch.linked) = decide (Attended past) := by
    rw [hh, hl, Bool.decide_or, Bool.decide_eq_true]
  unfold Exchange.settle
  rw [hlast]
  by_cases ha : Attended past
  · rw [if_pos (decide_eq_true ha)]
    exact ⟨hc, hr, hh, hl, by rw [hs ha, decide_eq_true ha]⟩
  · rw [if_neg (by simpa using ha)]
    exact ⟨hc, hr, hh, hl, (decide_eq_false ha).symm⟩

/-- An act that keeps the ends keeps what is said of them, if it is none that gives an end up or links. -/
theorem Ends.keep (h : Ends past x) (hy : Alike x y) {a : Act} (hc : present (a :: past) = present past)
    (hr : a ≠ .dropReceiver) (hs : a ≠ .dropSender) (hl : linked (a :: past) = linked past) : Ends (a :: past) y := by
  refine ⟨?_, ?_, ?_, ?_, ?_⟩
  · rw [hy.connected, h.connected, hc]
  · rw [hy.receiving, h.receiving]; simp [hr.symm]
  · rw [hy.held, h.held]; simp [hs.symm]
  · rw [hy.switch, h.switch, hl]
  · rw [hy.sending, h.sending]; simp [Attended, hs.symm, hl]

/-- An act that is not done, since the program waits, gives no end up. -/
theorem Ends.busy (h : Ends past x) (hw : waits past = true) {a : Act} (ha : a.isProgram = true) :
    Ends (a :: past) x := by
  cases a with
  | write | writeLine | clear | input => exact h.keep (.refl x) rfl (by simp) (by simp) rfl
  | dropConsole => exact h.keep (.refl x) (by rw [present, hw, Bool.and_true]) (by simp) (by simp) rfl
  | _ => cases ha

theorem Ends.perform (h : Ends past x) {a : Act} (ha : a = .dropConsole → waits past = false) :
    Ends (a :: past) (x.perform a).1 := by
  cases a with
  | write text => exact h.keep (report_alike x _) rfl (by simp) (by simp) rfl
  | writeLine text severity => exact h.keep (report_alike x _) rfl (by simp) (by simp) rfl
  | clear => exact h.keep (report_alike x _) rfl (by simp) (by simp) rfl
  | input prompt => exact h.keep (input_alike x prompt) rfl (by simp) (by simp) rfl
  | wake => exact h.keep (wake_alike x) rfl (by simp) (by simp) rfl
  | sendLine text => exact h.keep (h.send_alike _) rfl (by simp) (by simp) rfl
  | cancel => exact h.keep (h.send_alike _) rfl (by simp) (by simp) rfl
  | stop => exact h.keep h.stop_alike rfl (by simp) (by simp) rfl
  | drain => exact h.keep (drain_alike x) rfl (by simp) (by simp) rfl
  | link =>
    simp only [Exchange.perform, link_eq h.sending_of_held]
    refine ⟨?_, ?_, ?_, ?_, ?_⟩ <;>
      simp [h.connected, h.receiving, h.held, h.switch, h.sending, Attended, linked, present]
  | unlink =>
    refine .settle ?_ ?_ ?_ rfl fun ha => ?_
    · simp [h.connected, present]
    · simp [h.receiving]
    · simp [h.held]
    · have hs : .dropSender ∉ past := by simpa [Attended, linked] using ha
      simp [h.sending, hs]
  | dropSender =>
    refine .settle ?_ ?_ ?_ h.switch fun ha => ?_
    · simp [h.connected, present]
    · simp [h.receiving]
    · simp
    · have hl : linked past = true := by simpa [Attended, linked] using ha
      simp [h.sending, hl]
  | dropReceiver =>
    refine ⟨?_, ?_, ?_, h.switch, ?_⟩ <;>
      simp [Exchange.perform, Channel.dropReceiver, h.connected, h.held, h.sending, Attended, linked, present]
  | dropConsole =>
    refine ⟨?_, ?_, ?_, h.switch, ?_⟩ <;>
      simp [Exchange.perform, Channel.dropConsole, h.receiving, h.held, h.sending, Attended, linked, present, ha rfl]

theorem ends_after (past : List Act) : Ends past (after past) := by
  induction past with
  | nil => constructor <;> rfl
  | cons a past ih =>
    rw [after]
    obtain ⟨hwaits, hp, hact⟩ | ⟨hidle, hact⟩ := act_after past a
    · rw [hact]
      exact ih.busy hwaits hp
    · rw [hact]
      exact ih.perform fun ha => hidle (by rw [ha]; rfl)

theorem Answer.blocked_or {before : Bool} {answer : Answer} (h : answer.waits before = true) :
    answer = .blocked ∨ before = true := by
  cases answer <;> first | exact .inl rfl | exact .inr h | cases h

/-- A read that blocks was made on a console, or is one that was open before. -/
theorem connected_of_blocked {a : Act} (h : (x.act a).2 = .blocked) :
    x.channel.connected = true ∨ x.waiting = true := by
  unfold act at h
  split at h
  · cases h
  · obtain ⟨prompt, rfl⟩ | rfl | ⟨hother, -⟩ := perform_cases x a
    · cases hc : x.channel.connected with
      | true => exact .inl rfl
      | false => rw [perform, input_of_gone hc] at h; cases h
    · cases hw : x.waiting with
      | true => exact .inr rfl
      | false => rw [perform, wake_of_awake hw] at h; cases h
    · rw [h] at hother
      cases hother

/-- A program that waits has its console. -/
theorem present_of_waits (h : waits past = true) : present past = true := by
  induction past with
  | nil => cases h
  | cons a past ih =>
    have hp : present past = true := by
      rcases Answer.blocked_or h with hb | hw
      · rcases connected_of_blocked hb with hc | hw
        · exact (ends_after past).connected.symm.trans hc
        · exact ih ((waiting_after past).symm.trans hw)
      · exact ih hw
    cases a with
    | dropConsole =>
      rcases Answer.blocked_or h with hb | hw
      · unfold answer act at hb
        split at hb <;> cases hb
      · rw [present, hp, hw]
        rfl
    | _ => exact hp

end Exchange

end StepScript
