import Mathlib.Data.List.Infix
import StepScript.Proofs.Console.Exchange

/-!
# Nothing is lost on a channel

Whatever the program, its host and the stop switch of an `Exchange` do, one act after the other, the replies read are
the replies queued, and the events drained are the events reported (`Exchange.delivery`).

A conservation law on each queue says what an act hands over and leaves behind (`replies_act`, `events_act`); by
induction over the history, what was handed over and what is left is all that there was (`replies_after`,
`events_after`). There is a prompt for every read, whether it has its reply or waits for it (`prompts_after`).
-/

namespace StepScript

namespace Exchange

variable {past : List Act} {x : Exchange}

/-! ## The replies -/

theorem Attended.of_cons {a : Act} (h : Attended (a :: past)) : Attended past := by
  cases a <;> simp_all [Attended, linked]

theorem present.of_cons {a : Act} (h : present (a :: past) = true) : present past = true := by
  cases a <;> first | exact h | exact (Bool.and_eq_true_iff.1 h).1

@[simp] theorem report_replies (x : Exchange) (e : ConsoleEvent) :
    (x.report e).channel.replies = x.channel.replies := by
  unfold report; split <;> simp

@[simp] theorem drain_replies (x : Exchange) : x.drain.1.channel.replies = x.channel.replies := by
  cases hr : x.channel.receiving <;> simp [drain, Channel.drain, hr]

@[simp] theorem drain_answer_replies (x : Exchange) : x.drain.2.replies = [] := by
  cases hr : x.channel.receiving <;> simp [drain, Channel.drain, hr, Answer.replies]

@[simp] theorem settle_replies (x : Exchange) : x.settle.channel.replies = x.channel.replies := by
  unfold settle; split <;> rfl

theorem push_replies (hc : x.channel.connected = true) (reply : Reply) :
    (x.push reply).channel.replies = x.channel.replies ++ [reply] := by
  simp [push, hc]

theorem send_replies (h : Ends past x) (hc : present past = true) (reply : Reply) :
    (x.send reply).2.replies ++ (x.send reply).1.channel.replies =
      x.channel.replies ++ if .dropSender ∉ past ∧ present past then [reply] else [] := by
  have hx : x.channel.connected = true := h.connected.trans hc
  rw [send_eq h.sending_of_held, h.held]
  by_cases hs : .dropSender ∈ past <;> simp [hs, hc, push_replies hx, Answer.replies]

theorem stop_replies (h : Ends past x) (hc : present past = true) :
    x.stop.channel.replies =
      x.channel.replies ++ if linked past ∧ present past then [.cancelled] else [] := by
  have hx : x.channel.connected = true := h.connected.trans hc
  rw [stop_eq h.sending_of_linked, h.switch]
  by_cases hl : linked past <;> simp [hl, hc, push_replies hx]

/-- What a look hands to the program and leaves in the queue is what was there, or nobody can queue anything. -/
theorem look_replies (x : Exchange) :
    x.look.2.replies ++ x.look.1.channel.replies = x.channel.replies ∨
      x.channel.replies = [] ∧ x.channel.sending = false ∧ x.look.2.replies = [.cancelled] ∧
        x.look.1.channel.replies = [] := by
  obtain ⟨reply, rest, hr, h⟩ | ⟨hr, ⟨-, h⟩ | ⟨hs, h⟩⟩ := look_cases x
  · left; rw [h, hr]; rfl
  · left; rw [h]; rfl
  · right; rw [h]; exact ⟨hr, hs, rfl, hr⟩

/-- What an act hands to the program and leaves in the queue is what was there and what it queues, in this order.
Only a read of an empty queue that nobody attends to any more brings back what nobody queued. -/
theorem perform_replies (h : Ends past x) (hc : present past = true) {a : Act} (ha : a ≠ .dropConsole) :
    (x.perform a).2.replies ++ (x.perform a).1.channel.replies = x.channel.replies ++ replies past a ∨
      x.channel.replies = [] ∧ ¬ Attended past ∧ replies past a = [] ∧
        (x.perform a).2.replies = [.cancelled] ∧ (x.perform a).1.channel.replies = [] := by
  have hun (hs : x.channel.sending = false) : ¬ Attended past := of_decide_eq_false (h.sending.symm.trans hs)
  cases a with
  | input prompt =>
    have hnone : replies past (.input prompt) = [] := rfl
    rw [perform, input_of_present (h.connected.trans hc), hnone, List.append_nil]
    obtain hk | ⟨hr, hs, hl⟩ := look_replies (x.report (.prompt prompt))
    · exact .inl (hk.trans (report_replies x _))
    · exact .inr ⟨(report_replies x _).symm.trans hr, hun ((report_alike x _).sending.symm.trans hs), rfl, hl⟩
  | wake =>
    have hnone : replies past .wake = [] := rfl
    rw [perform, hnone, List.append_nil]
    cases hw : x.waiting with
    | false => rw [wake_of_awake hw]; exact .inl rfl
    | true =>
      rw [wake_of_waiting hw]
      obtain hk | ⟨hr, hs, hl⟩ := look_replies x
      · exact .inl hk
      · exact .inr ⟨hr, hun hs, rfl, hl⟩
  | sendLine text => exact .inl (send_replies h hc _)
  | cancel => exact .inl (send_replies h hc _)
  | stop => exact .inl (stop_replies h hc)
  | link => left; simp [perform, link_eq h.sending_of_held, Answer.replies, replies]
  | drain => left; simp [perform, replies]
  | dropConsole => exact absurd rfl ha
  | _ => left; simp [perform, Answer.replies, replies, Channel.dropReceiver]

theorem replies_of_program {a : Act} (ha : a.isProgram = true) : replies past a = [] := by
  cases a <;> first | rfl | cases ha

/-- The same of every act of a program that keeps its console. -/
theorem replies_act {a : Act} (hc : present (a :: past) = true) :
    (answer past a).replies ++ (after (a :: past)).channel.replies = (after past).channel.replies ++ replies past a ∨
      (after past).channel.replies = [] ∧ ¬ Attended past ∧ replies past a = [] ∧
        (answer past a).replies = [.cancelled] ∧ (after (a :: past)).channel.replies = [] := by
  rw [answer, after]
  obtain ⟨-, hp, hact⟩ | ⟨hidle, hact⟩ := act_after past a
  · rw [hact, replies_of_program hp, List.append_nil]
    exact .inl rfl
  · rw [hact]
    refine perform_replies (ends_after past) (present.of_cons hc) ?_
    rintro rfl
    exact absurd (hidle rfl) (by rw [(Bool.and_eq_true_iff.1 hc).2]; decide)

/-- Where nobody attends to the reads, nothing is queued. -/
theorem replies_of_unattended (h : ¬ Attended past) (a : Act) : replies past a = [] := by
  have hs : .dropSender ∈ past := by by_contra hs; exact h (.inl hs)
  have hl : ¬ linked past := fun hl => h (.inr hl)
  cases a <;> simp [replies, hs, hl]

/-- With the console its reads are gone, and what was sent to it. -/
theorem replies_of_gone {a : Act} (hc : present (a :: past) = false) :
    (answer past a).replies = [] ∧ replies past a = [] := by
  by_cases hp : present past = true
  · -- the console is given up now
    have ha : a = .dropConsole := by
      cases a <;> first | rfl | exact absurd (hp.symm.trans hc) (by decide)
    subst ha
    rw [present, hp, Bool.true_and] at hc
    rw [answer, act_of_awake ((waiting_after past).trans hc)]
    exact ⟨rfl, rfl⟩
  · have h := ends_after past
    have hx : (after past).channel.connected = false := h.connected.trans (by simpa using hp)
    have hw : waits past = false := by
      cases hw : waits past with
      | false => rfl
      | true => exact absurd (present_of_waits hw) hp
    have hawake := (waiting_after past).trans hw
    refine ⟨?_, by cases a <;> simp [replies, hp]⟩
    rw [answer, act_of_awake hawake]
    cases a with
    | input prompt => rw [perform, input_of_gone hx]; rfl
    | wake => rw [perform, wake_of_awake hawake]; rfl
    | drain => simp [perform]
    | sendLine | cancel => simp only [perform, send_eq h.sending_of_held]; split <;> rfl
    | _ => rfl

/-- The law of the replies: what was read and what is left is what was queued, until the queue has run dry with
nobody to fill it; from then on reads are cancelled. -/
theorem replies_after (past : List Act) :
    ∃ k left, read past ++ left = queued past ++ List.replicate k .cancelled ∧
      (0 < k → left = [] ∧ ¬ Attended past) ∧
      (present past = true → (after past).channel.replies = left) := by
  induction past with
  | nil => exact ⟨0, [], rfl, by simp, fun _ => rfl⟩
  | cons a past ih =>
    obtain ⟨k, left, hq, hk, hl⟩ := ih
    have unattended : 0 < k → ¬ Attended (a :: past) := fun h ha => (hk h).2 ha.of_cons
    -- the reads that nobody answered stand behind all that was queued, so what is queued now is nothing after them
    have behind : List.replicate k .cancelled ++ replies past a = replies past a ++ List.replicate k .cancelled := by
      cases k with
      | zero => simp
      | succ k => rw [replies_of_unattended (hk k.succ_pos).2, List.append_nil, List.nil_append]
    simp only [read, queued]
    cases hc : present (a :: past) with
    | false =>
      obtain ⟨hr, hs⟩ := replies_of_gone hc
      exact ⟨k, left, by simpa [hr, hs] using hq, fun h => ⟨(hk h).1, unattended h⟩, fun h => by cases h⟩
    | true =>
      rw [← hl (present.of_cons hc)] at hq hk
      obtain hkept | ⟨hnone, hun, hs, hr, hnone'⟩ := replies_act hc
      · refine ⟨k, (after (a :: past)).channel.replies, ?_, fun h => ⟨?_, unattended h⟩, fun _ => rfl⟩
        · calc read past ++ (answer past a).replies ++ (after (a :: past)).channel.replies
              = read past ++ ((after past).channel.replies ++ replies past a) := by rw [List.append_assoc, hkept]
            _ = queued past ++ (List.replicate k .cancelled ++ replies past a) := by
              rw [← List.append_assoc, hq, List.append_assoc]
            _ = queued past ++ replies past a ++ List.replicate k .cancelled := by
              rw [behind, List.append_assoc]
        · rw [(hk h).1, replies_of_unattended (hk h).2, List.append_nil] at hkept
          exact (List.append_eq_nil_iff.mp hkept).2
      · refine ⟨k + 1, [], ?_, fun _ => ⟨rfl, fun h => hun h.of_cons⟩, fun _ => hnone'⟩
        rw [hnone, List.append_nil] at hq
        rw [hr, hs, hq, List.append_nil, List.append_nil, List.replicate_succ', List.append_assoc]

/-! ## The events -/

@[simp] theorem settle_events (x : Exchange) : x.settle.channel.events = x.channel.events := by
  unfold settle; split <;> rfl

@[simp] theorem push_events (x : Exchange) (reply : Reply) : (x.push reply).channel.events = x.channel.events := by
  unfold push; split <;> rfl

theorem send_events (h : Ends past x) (reply : Reply) :
    (x.send reply).1.channel.events = x.channel.events ∧ (x.send reply).2.events = [] := by
  rw [send_eq h.sending_of_held]
  split <;> simp [Answer.events]

theorem stop_events (h : Ends past x) : x.stop.channel.events = x.channel.events := by
  rw [stop_eq h.sending_of_linked]
  split <;> simp

theorem report_events (x : Exchange) (e : ConsoleEvent) :
    (x.report e).channel.events.toList =
      x.channel.events.toList ++ if x.channel.connected ∧ x.channel.receiving then [e] else [] := by
  unfold report
  cases hc : x.channel.connected <;> cases hr : x.channel.receiving <;> simp [Channel.emit_events, hr]

/-- To look for a reply reports nothing. -/
theorem look_events (x : Exchange) : x.look.2.events = [] ∧ x.look.1.channel.events = x.channel.events := by
  obtain ⟨reply, rest, -, h⟩ | ⟨-, ⟨-, h⟩ | ⟨-, h⟩⟩ := look_cases x <;> rw [h] <;> exact ⟨rfl, rfl⟩

/-- A read reports its prompt, whatever it comes to. -/
theorem input_events (x : Exchange) (prompt : String) :
    (x.input prompt).2.events = [] ∧
      (x.input prompt).1.channel.events = (x.report (.prompt prompt)).channel.events := by
  cases hc : x.channel.connected with
  | false => simp [input_of_gone hc, Answer.events, report, hc]
  | true => rw [input_of_present hc]; exact look_events _

theorem wake_events (x : Exchange) : x.wake.2.events = [] ∧ x.wake.1.channel.events = x.channel.events := by
  cases hw : x.waiting with
  | false => rw [wake_of_awake hw]; exact ⟨rfl, rfl⟩
  | true => rw [wake_of_waiting hw]; exact look_events x

/-- What an act hands to the host and leaves in the queue is what was there and what it reports, in this order. -/
theorem perform_events (h : Ends past x) (hr : .dropReceiver ∉ past) {a : Act} (ha : a ≠ .dropReceiver) :
    (x.perform a).2.events ++ (x.perform a).1.channel.events.toList =
      x.channel.events.toList ++ if present past ∧ .dropReceiver ∉ past then a.events else [] := by
  have hx : x.channel.connected ∧ x.channel.receiving ↔ present past ∧ .dropReceiver ∉ past := by
    rw [h.connected, h.receiving, decide_eq_true_iff]
  cases a with
  | write | writeLine | clear =>
    simp only [perform, Answer.events, List.nil_append, report_events, hx, Act.events]
  | input prompt =>
    obtain ⟨hanswer, hevents⟩ := input_events x prompt
    rw [perform, hanswer, hevents, List.nil_append, report_events]
    simp only [hx, Act.events]
  | wake =>
    obtain ⟨hanswer, hevents⟩ := wake_events x
    simp [perform, hanswer, hevents, Act.events]
  | sendLine | cancel => simp [perform, (send_events h _).1, (send_events h _).2, Act.events]
  | stop => simp [perform, stop_events h, Answer.events, Act.events]
  | link => simp [perform, link_eq h.sending_of_held, Answer.events, Act.events]
  | drain =>
    have hr : x.channel.receiving = true := by rw [h.receiving, decide_eq_true hr]
    simp [perform, drain, Channel.drain, hr, Answer.events, Act.events]
  | dropReceiver => exact absurd rfl ha
  | _ => simp [perform, Answer.events, Act.events, Channel.dropConsole]

theorem events_of_host {a : Act} (ha : a.isProgram = false) : a.events = [] := by
  cases a <;> first | rfl | cases ha

/-- The same of every act: one that is not done reports nothing. -/
theorem events_act (hr : .dropReceiver ∉ past) {a : Act} (ha : a ≠ .dropReceiver) :
    (answer past a).events ++ (after (a :: past)).channel.events.toList =
      (after past).channel.events.toList ++ if Heard past then a.events else [] := by
  have h := perform_events (ends_after past) hr ha
  rw [answer, after]
  obtain ⟨hwaits, hp, hact⟩ | ⟨hidle, hact⟩ := act_after past a
  · rw [hact]
    simp [Heard, hwaits, Answer.events]
  · rw [hact, h]
    cases hp : a.isProgram with
    | true => simp [Heard, hidle hp]
    | false => simp [events_of_host hp]

/-- With the receiver its events are gone, and there is none to take more. -/
theorem events_of_gone (hr : .dropReceiver ∈ past) (a : Act) : (answer past a).events = [] := by
  have h := ends_after past
  unfold answer act
  split
  · rfl
  · cases a with
    | drain =>
      have hx : (after past).channel.receiving = false := by simp [h.receiving, hr]
      simp [perform, drain, Channel.drain, hx, Answer.events]
    | input prompt => exact (input_events _ prompt).1
    | wake => exact (wake_events _).1
    | sendLine | cancel => exact (send_events h _).2
    | _ => rfl

/-- The law of the events: what was drained and what is left is what was reported, as long as there is a receiver. -/
theorem events_after (past : List Act) :
    drained past <+: reported past ∧
    (.dropReceiver ∉ past → drained past ++ (after past).channel.events.toList = reported past) := by
  induction past with
  | nil => exact ⟨List.prefix_rfl, fun _ => rfl⟩
  | cons a past ih =>
    obtain ⟨hstart, heq⟩ := ih
    simp only [drained, reported]
    by_cases hgone : .dropReceiver ∈ past ∨ a = .dropReceiver
    · have hnone : (answer past a).events = [] := by
        obtain hr | rfl := hgone
        · exact events_of_gone hr a
        · rw [answer, act_of_host rfl]
          rfl
      refine ⟨?_, fun hr => ?_⟩
      · rw [hnone, List.append_nil]
        exact hstart.trans (List.prefix_append _ _)
      · obtain hr' | rfl := hgone
        · exact absurd (List.mem_cons_of_mem a hr') hr
        · exact absurd List.mem_cons_self hr
    · obtain ⟨hr, ha⟩ := not_or.mp hgone
      have hall : drained past ++ (answer past a).events ++ (after (a :: past)).channel.events.toList =
          reported past ++ if Heard past then a.events else [] := by
        rw [List.append_assoc, events_act hr ha, ← List.append_assoc, heq hr]
      exact ⟨hall ▸ List.prefix_append _ _, fun _ => hall⟩

/-! ## Prompts and replies -/

/-- A look hands over a reply, or leaves the program waiting. -/
theorem look_balance (x : Exchange) (before : Bool) : x.look.2.replies.length + (x.look.2.waits before).toNat = 1 := by
  obtain ⟨reply, rest, -, h⟩ | ⟨-, ⟨-, h⟩ | ⟨-, h⟩⟩ := look_cases x <;> rw [h] <;> rfl

/-- What an act does to the reads that are open and those that have their reply: a prompt opens one. -/
theorem perform_balance (x : Exchange) {a : Act} (ha : a.isProgram = true → x.waiting = false) :
    (x.perform a).2.replies.length + ((x.perform a).2.waits x.waiting).toNat =
      (if x.channel.connected then a.events.countP ConsoleEvent.isPrompt else 0) + x.waiting.toNat := by
  obtain ⟨prompt, rfl⟩ | rfl | ⟨hother, -, hprompts⟩ := perform_cases x a
  · rw [perform, ha rfl]
    cases hc : x.channel.connected with
    | false => rw [input_of_gone hc]; rfl
    | true => rw [input_of_present hc, look_balance]; rfl
  · rw [perform]
    cases hw : x.waiting with
    | false => rw [wake_of_awake hw]; cases x.channel.connected <;> rfl
    | true => rw [wake_of_waiting hw, look_balance]; cases x.channel.connected <;> rfl
  · obtain ⟨hreplies, hwaits⟩ := Answer.of_other hother x.waiting
    rw [hreplies, hwaits, hprompts, ite_self]
    rfl

/-- **A prompt is reported for every read**, for those that have their reply and for the one that waits for it. -/
theorem prompts_after (hr : .dropReceiver ∉ past) :
    (reported past).countP ConsoleEvent.isPrompt = (read past).length + (waits past).toNat := by
  induction past with
  | nil => rfl
  | cons a past ih =>
    have hr' : .dropReceiver ∉ past := fun h => hr (List.mem_cons_of_mem a h)
    have hstep : (answer past a).replies.length + ((answer past a).waits (waits past)).toNat =
        (if Heard past then a.events else []).countP ConsoleEvent.isPrompt + (waits past).toNat := by
      rw [answer]
      obtain ⟨hwaits, -, hact⟩ | ⟨hidle, hact⟩ := act_after past a
      · rw [hact]
        simp [Heard, hwaits, Answer.replies, Answer.waits]
      · have hw := waiting_after past
        have hbalance := perform_balance (after past) (a := a) fun ha => hw.trans (hidle ha)
        rw [hw, (ends_after past).connected] at hbalance
        rw [hact, hbalance]
        cases hp : a.isProgram with
        | true => by_cases hc : present past = true <;> simp [Heard, hidle hp, hr', hc]
        | false => simp [events_of_host hp]
    rw [reported, List.countP_append, ih hr', read, List.length_append, waits]
    omega

/-! ## Delivery -/

/-- The first of the queued replies that was not read yet is at the head of the queue. -/
theorem next_reply (hc : present past = true) :
    (queued past)[(read past).length]? = (after past).channel.replies.head? := by
  obtain ⟨k, left, hq, hk, hl⟩ := replies_after past
  rw [hl hc]
  cases left with
  | nil =>
    rw [List.append_nil] at hq
    exact List.getElem?_eq_none (by simp [hq])
  | cons reply rest =>
    have hzero : k = 0 := by
      by_contra hpos
      cases (hk (Nat.pos_of_ne_zero hpos)).1
    rw [hzero, List.replicate_zero, List.append_nil] at hq
    simp [← hq]

/-- A look comes to what the replies queued and read so far say. -/
theorem look_outcome (hc : present past = true) (hr : x.channel.replies = (after past).channel.replies)
    (hs : x.channel.sending = (after past).channel.sending) : x.look.2 = outcome past := by
  unfold outcome
  rw [next_reply hc, ← hr]
  have hattended : x.channel.sending = decide (Attended past) := hs.trans (ends_after past).sending
  obtain ⟨reply, rest, hq, h⟩ | ⟨hq, ⟨ha, h⟩ | ⟨ha, h⟩⟩ := look_cases x
  · rw [h, hq]
    rfl
  · rw [h, hq, List.head?_nil]
    simp [of_decide_eq_true (hattended.symm.trans ha)]
  · rw [h, hq, List.head?_nil]
    simp [of_decide_eq_false (hattended.symm.trans ha)]

theorem answer_input (hc : present past = true) (hw : waits past = false) (prompt : String) :
    answer past (.input prompt) = outcome past := by
  rw [answer, act_of_awake ((waiting_after past).trans hw), perform,
    input_of_present ((ends_after past).connected.trans hc)]
  exact look_outcome hc (report_replies _ _) (report_alike _ _).sending

theorem answer_wake (hw : waits past = true) : answer past .wake = outcome past := by
  rw [answer, act_of_host rfl, perform, wake_of_waiting ((waiting_after past).trans hw)]
  exact look_outcome (present_of_waits hw) rfl rfl

theorem look_of_blocked (h : x.look.2 = .blocked) : x.look.1 = { x with waiting := true } := by
  obtain ⟨reply, rest, -, hl⟩ | ⟨-, ⟨-, hl⟩ | ⟨-, hl⟩⟩ := look_cases x <;> rw [hl] at h ⊢ <;> cases h

/-- A read that blocks has reported its prompt and leaves the program waiting. -/
theorem after_blocked {prompt : String} (h : answer past (.input prompt) = .blocked) :
    after (.input prompt :: past) = { (after past).report (.prompt prompt) with waiting := true } := by
  rw [answer] at h
  rw [after]
  obtain ⟨-, -, hact⟩ | ⟨-, hact⟩ := act_after past (.input prompt)
  · rw [hact] at h
    cases h
  · rw [hact, perform] at h ⊢
    cases hc : (after past).channel.connected with
    | false => rw [input_of_gone hc] at h; cases h
    | true =>
      rw [input_of_present hc] at h ⊢
      exact look_of_blocked h

/-- A program that finds no reply has changed nothing. -/
theorem after_still_blocked (h : answer past .wake = .blocked) : after (.wake :: past) = after past := by
  rw [answer, act_of_host rfl, perform] at h
  rw [after, act_of_host rfl, perform]
  cases hw : (after past).waiting with
  | false => rw [wake_of_awake hw] at h; cases h
  | true =>
    rw [wake_of_waiting hw] at h ⊢
    rw [look_of_blocked h, ← hw]

/-- **Nothing is lost, doubled or reordered on a channel**, whatever program, host and stop switch do, and in
whatever order they do it. A read reports its prompt and takes the next queued reply; it blocks only when there is none
and someone can still send one, and without anyone it is cancelled. While it blocks the program reports nothing more and
does nothing but look for the reply, which changes nothing until there is one. So the replies read are the first of
those queued, and cancellations after the last of them once nobody can send another; there is a prompt for each of them,
and one for the read that waits. Whenever the host drains, it has had all that was reported, and never anything else. -/
theorem delivery (past : List Act) :
    (present past → waits past = false → ∀ prompt, answer past (.input prompt) = outcome past) ∧
    (waits past → answer past .wake = outcome past) ∧
    (∀ prompt, answer past (.input prompt) = .blocked →
      after (.input prompt :: past) = { (after past).report (.prompt prompt) with waiting := true }) ∧
    (answer past .wake = .blocked → after (.wake :: past) = after past) ∧
    (waits past → ∀ a, a.isProgram → answer past a = .busy ∧ after (a :: past) = after past) ∧
    (read past <+: queued past ∨
      ¬ Attended past ∧ ∃ k, read past = queued past ++ List.replicate k .cancelled) ∧
    (.dropReceiver ∉ past → drained (.drain :: past) = reported past ∧
      (reported past).countP ConsoleEvent.isPrompt = (read past).length + (waits past).toNat) ∧
    drained past <+: reported past := by
  refine ⟨answer_input, answer_wake, fun _ => after_blocked, after_still_blocked, fun hw a ha => ?_, ?_,
    fun hr => ⟨?_, prompts_after hr⟩, (events_after past).1⟩
  · rw [answer, after, act_of_busy ((waiting_after past).trans hw) ha]
    exact ⟨rfl, rfl⟩
  · obtain ⟨k, left, hq, hk, -⟩ := replies_after past
    cases k with
    | zero => exact .inl ⟨left, by simpa using hq⟩
    | succ k =>
      obtain ⟨rfl, hun⟩ := hk k.succ_pos
      exact .inr ⟨hun, k + 1, by simpa using hq⟩
  · have hx : (after past).channel.receiving = true := by rw [(ends_after past).receiving, decide_eq_true hr]
    have hdrain : (answer past .drain).events = (after past).channel.events.toList := by
      rw [answer, act_of_host rfl]
      simp [perform, drain, Channel.drain, hx, Answer.events]
    rw [← (events_after past).2 hr, drained, hdrain]

/-- The host reads off one line, links the switch and leaves. The next read prompts and blocks, as the switch could
still cancel it; what the program would write does not come about; the switch is pulled, and the read is cancelled. -/
theorem delivery_stopAlone :
    let past : List Act :=
      [.stop, .write "late", .input "b", .dropSender, .link, .input "a", .sendLine "x", .write "w"]
    answer past .wake = .read .cancelled ∧ drained (.drain :: past) = [.write "w", .prompt "a", .prompt "b"] := by
  intro past
  obtain ⟨-, hwake, -, -, -, -, hdrain, -⟩ := delivery past
  exact ⟨hwake (by decide), (hdrain (by decide)).1⟩

/-- A read on a channel with a sender and no reply blocks, but its prompt has reached the host; and what was reported
but not drained is lost with the receiver. -/
theorem blocked_read_has_prompted :
    (answer [] (.input "name: ") = .blocked ∧ reported [.input "name: "] ≠ reported [] ∧
      drained [.drain, .input "name: "] = [.prompt "name: "] ∧ read [.drain, .input "name: "] = []) ∧
    drained [.drain, .dropReceiver, .write "a"] ≠ reported [.drain, .dropReceiver, .write "a"] := by
  decide

end Exchange

end StepScript
