import StepScript.Proofs.Grammar.Mistakes
import StepScript.Proofs.Grammar.Scanning
import StepScript.Proofs.Machine.Home
import StepScript.Proofs.Machine.Lively
import StepScript.Proofs.Machine.Scripted

/-!
# What a run takes from a script

A plain run on a script reads its lines in order. No line is lost or read twice, wherever in the program the read is
made: when the lines are used up, the next read is cancelled, and that is the end of the run.

* `Reading m₀ reads m` is a run without a hook that lists its reads, with their prompts and answers.
* `Accounts k₀ reads k m` keeps account of such a run: of what the script had before it, what it has now, and whether
  the machine is failing because a read was cancelled. A step keeps the accounts (`Accounts.step`), and a read is entered
  in them (`Accounts.read`).
-/

namespace StepScript

/-! ## What is shown to a script -/

namespace Transcript

theorem prompts_hear (t : Transcript) (e : Option Event) : (t.hear e).prompts = t.prompts := by
  cases e with
  | none => rfl
  | some e => cases e <;> rfl

/-- What is shown is written behind what was written before. -/
theorem output_hear (t : Transcript) (e : Option Event) : ∃ text, (t.hear e).output = t.output ++ text := by
  cases e with
  | none => exact ⟨"", by simp [hear]⟩
  | some e =>
    cases e with
    | write text => exact ⟨text, rfl⟩
    | writeLine text =>
      refine ⟨text.push '\n', String.toList_inj.1 ?_⟩
      simp [hear]
    | visit | lap | clear => exact ⟨"", by simp [hear]⟩

end Transcript

/-- What reads on a script are answered, one after the other: its lines, and then a cancelled read. -/
def Script.replies (k : Script) : List Reply := k.inputs.map Reply.line ++ [.cancelled]

theorem Script.replies_of_line {k : Script} {i : Nat} {line : String} (h : k.inputs[i]? = some line) :
    k.replies[i]? = some (.line line) := by
  have hlt : i < k.inputs.length := (List.getElem?_eq_some_iff.1 h).1
  rw [replies, List.getElem?_append_left (by simpa using hlt), List.getElem?_map, h, Option.map_some]

theorem Script.replies_length (k : Script) : k.replies[k.inputs.length]? = some .cancelled := by
  simp [replies]

/-! ## Cancelled reads -/

/-- Whether a focus is the failure of a run whose read was cancelled. -/
def Focus.isCancel : Focus → Bool
  | fail d => d.fault == .inputCancelled
  | _ => false

theorem Focus.isCancel_eq_false {f : Focus} (h : f.isForeign = false) : f.isCancel = false := by
  cases f with
  | fail d => exact (Bool.or_eq_false_iff.1 h).2
  | _ => rfl

namespace Machine

section Cancelled

variable {m : Machine}

/-- A failure goes outward as it is. -/
theorem focus_step_of_fail {d : Diagnostic} (hm : m.focus = .fail d) : m.step.1.focus = .fail d := by
  cases hp : m.pending with
  | nil =>
    simp only [Machine.step, hm, hp]
  | cons w rest =>
    rw [step_fail hm hp, ← hm]
    cases w <;> rfl

/-- A step neither cancels a read nor makes good for one. -/
theorem isCancel_step (h : m.stopped = false) : m.step.1.focus.isCancel = m.focus.isCancel := by
  cases hm : m.focus with
  | fail d => rw [focus_step_of_fail hm]
  | _ =>
    rcases (inborn_step h).own with hf | hf
    · rw [hf, hm]
    · exact Focus.isCancel_eq_false hf

theorem stopped_answer (reply : Reply) : (m.answer reply).stopped = m.stopped := by
  unfold answer
  split
  · cases reply with
    | line text =>
      dsimp only
      split <;> rfl
    | cancelled =>
      dsimp only
      split <;> rfl
  · rfl

/-- A line that is read cancels nothing. -/
theorem isCancel_answer_line {prompt : String} (hm : m.focus = .await prompt) (line : String) :
    (m.answer (.line line)).focus.isCancel = false := by
  unfold answer
  split
  · dsimp only
    split <;> rfl
  · rw [hm]
    rfl

/-- A read that is cancelled fails, and the failure says so. -/
theorem isCancel_answer_cancelled {keep : Bool} {span : Span} {rest : List Pending} {prompt : String}
    (hm : m.focus = .await prompt) (hp : m.pending = .reply keep span :: rest) (h : m.stopped = false) :
    (m.answer .cancelled).focus.isCancel = true := by
  simp only [answer, hm, hp, h]
  rfl

end Cancelled

/-! ## Accounts -/

/-- A run without a hook from one moment to another, with the prompts of its reads and what they were answered. -/
inductive Reading (m₀ : Machine) : List (String × Reply) → Machine → Prop
  | refl : Reading m₀ [] m₀
  | step {m : Machine} {reads : List (String × Reply)} : Reading m₀ reads m → m.waiting? = none → m.finished? = none →
      Reading m₀ reads m.step.1
  | read {m : Machine} {reads : List (String × Reply)} {prompt : String} (reply : Reply) : Reading m₀ reads m →
      m.focus = .await prompt → Reading m₀ (reads ++ [(prompt, reply)]) (m.answer reply)

/-- The accounts of a run that began with the script `k₀` and has come to `k`. -/
structure Accounts (k₀ : Script) (reads : List (String × Reply)) (k : Script) (m : Machine) : Prop where
  unstopped : m.stopped = false
  working : ∃ home, Working [] home .value m
  output : ∃ text, k.transcript.output = k₀.transcript.output ++ text
  prompts : k.transcript.prompts = k₀.transcript.prompts ++ (reads.map Prod.fst).toArray
  within : reads.length ≤ k₀.inputs.length + 1
  left : k.inputs = k₀.inputs.drop reads.length
  replies : reads.map Prod.snd = k₀.replies.take reads.length
  cancelled : m.focus.isCancel = true ↔ reads.length = k₀.inputs.length + 1

section Accounts

variable {k₀ k k' : Script} {reads : List (String × Reply)} {m₀ m m' : Machine}

/-- **A step keeps the accounts**, with what it shows. -/
theorem Accounts.step (h : Accounts k₀ reads k m) (hf : m.finished? = none) :
    Accounts k₀ reads ⟨k.inputs, k.transcript.hear m.step.2⟩ m.step.1 := by
  have hb : ¬m.Back [] := by
    rw [← isFinished_iff, isFinished_eq, hf]
    decide
  refine ⟨(inborn_step h.unstopped).unstopped, ?_, ?_, ?_, h.within, h.left, h.replies, ?_⟩
  · obtain ⟨home, hw⟩ := h.working
    exact ⟨home, working_step hw hb⟩
  · obtain ⟨text, ht⟩ := h.output
    obtain ⟨more, hm⟩ := k.transcript.output_hear m.step.2
    exact ⟨text ++ more, by rw [hm, ht, String.append_assoc]⟩
  · rw [Transcript.prompts_hear]
    exact h.prompts
  · rw [isCancel_step h.unstopped]
    exact h.cancelled

/-- A read that is answered as the script has it is entered in the accounts. -/
theorem Accounts.enter (h : Accounts k₀ reads k m) (prompt : String) {reply : Reply}
    (hreply : k₀.replies[reads.length]? = some reply) (hle : reads.length ≤ k₀.inputs.length)
    (hcancel : (m.answer reply).focus.isCancel = true ↔ reads.length = k₀.inputs.length) :
    Accounts k₀ (reads ++ [(prompt, reply)]) ⟨k₀.inputs.drop (reads.length + 1), k.transcript.ask prompt⟩
      (m.answer reply) := by
  have hlength : (reads ++ [(prompt, reply)]).length = reads.length + 1 := by simp
  refine ⟨(stopped_answer reply).trans h.unstopped, ?_, h.output, ?_, ?_, ?_, ?_, ?_⟩
  · obtain ⟨home, hw⟩ := h.working
    exact ⟨home, working_answer hw (by decide) reply⟩
  · simp [Transcript.ask, h.prompts]
  · omega
  · rw [hlength]
  · rw [hlength, List.take_add_one, hreply, List.map_append, h.replies]
    rfl
  · rw [hlength, hcancel]
    omega

/-- **A read is entered in the accounts**: it takes the next line, or it is the last one. -/
theorem Accounts.read (h : Accounts k₀ reads k m) {prompt : String} (hm : m.focus = .await prompt) :
    ∃ k' reply, m.advance Hook.idle.observer ((), .script k) = .going ((), .script k') (m.answer reply) ∧
      Accounts k₀ (reads ++ [(prompt, reply)]) k' (m.answer reply) := by
  have hopen : reads.length ≠ k₀.inputs.length + 1 := by
    intro hend
    have hcancel := h.cancelled.2 hend
    rw [hm] at hcancel
    cases hcancel
  have hwithin := h.within
  obtain ⟨inputs, t⟩ := k
  have hleft : inputs = k₀.inputs.drop reads.length := h.left
  cases inputs with
  | cons line rest =>
    have hline : k₀.inputs[reads.length]? = some line := by
      rw [← List.head?_drop, ← hleft]
      rfl
    have hlt : reads.length < k₀.inputs.length := (List.getElem?_eq_some_iff.1 hline).1
    have hrest : rest = k₀.inputs.drop (reads.length + 1) := by
      rw [← List.tail_drop, ← hleft]
      rfl
    refine ⟨⟨rest, t.ask prompt⟩, .line line, advance_read hm line rest t, ?_⟩
    rw [hrest]
    refine h.enter prompt (Script.replies_of_line hline) (Nat.le_of_lt hlt) ?_
    rw [isCancel_answer_line hm line]
    simp [Nat.ne_of_lt hlt]
  | nil =>
    have hall : reads.length = k₀.inputs.length := by
      have hge := List.drop_eq_nil_iff.1 hleft.symm
      omega
    obtain ⟨home, hw⟩ := h.working
    obtain ⟨keep, span, more, hp⟩ := hw.reply (by decide) hm
    have hrest : ([] : List String) = k₀.inputs.drop (reads.length + 1) := by
      rw [List.drop_eq_nil_of_le (by omega)]
    refine ⟨⟨[], t.ask prompt⟩, .cancelled, advance_cancelled hm t, ?_⟩
    rw [hrest]
    refine h.enter prompt ?_ (Nat.le_of_eq hall) ?_
    · rw [hall]
      exact k₀.replies_length
    · simp [isCancel_answer_cancelled hm hp h.unstopped, hall]

/-- **A whole run keeps its accounts.** -/
theorem Accounts.run : ∀ {fuel : Nat} {reads : List (String × Reply)} {k : Script} {m : Machine}
    {s' : Unit × Console}, Reading m₀ reads m → Accounts k₀ reads k m →
    m.run Hook.idle.observer fuel ((), .script k) = some (s', m') →
    ∃ reads' k', s' = ((), .script k') ∧ Reading m₀ reads' m' ∧ Accounts k₀ reads' k' m'
  | 0, _, _, _, _, _, _, hr => by cases hr
  | fuel + 1, reads, k, m, s', hreading, h, hr => by
    rw [Machine.run] at hr
    cases hw : m.waiting? with
    | some prompt =>
      have hm := focus_of_waiting? hw
      obtain ⟨k', reply, ha, h'⟩ := h.read hm
      rw [ha] at hr
      exact Accounts.run (hreading.read reply hm) h' hr
    | none =>
      cases hf : m.finished? with
      | some result =>
        rw [advance_finished _ _ hf] at hr
        cases hr
        exact ⟨reads, k, rfl, hreading, h⟩
      | none =>
        rw [advance_plain k hw hf] at hr
        exact Accounts.run (hreading.step hw hf) (h.step hf) hr

/-- At the end of a run the accounts tell whether a read was cancelled. -/
theorem Accounts.finished (h : Accounts k₀ reads k m) {result : Except Diagnostic Value}
    (hf : m.finished? = some result) :
    (∃ d, result = .error d ∧ d.fault = .inputCancelled) ↔ reads.length = k₀.inputs.length + 1 := by
  rw [← h.cancelled]
  unfold finished? at hf
  split at hf <;> cases hf <;> rename_i hm <;> rw [hm]
  all_goals simp [Focus.isCancel]

end Accounts

end Machine

/-- The reads of a text that is executed, with their prompts and what they were answered. A text that does not compile
reads nothing. -/
def Session.Reads (s : Session) (source : String) (reads : List (String × Reply)) (s' : Session) : Prop :=
  match compile source with
  | .ok program => Machine.Reading (s.machine.begin program) reads s'.machine
  | .error _ => reads = []

open Machine in
/-- **Console accounting.** If a text is executed on a script with `n` lines left, by a machine that was not told to
stop: what was written before is the beginning of what is written then; it makes `p ≤ n + 1` reads, whose prompts are
added to the prompts from before; it leaves the lines but for the first `min p n`; the reads are answered by the lines
in their order, and the last of `n + 1` reads is cancelled; and the execution ends with a cancelled read exactly if
there are `n + 1` of them. -/
theorem console_accounting (s s' : Session) (k : Script) (hk : s.console = .script k)
    (hs : s.machine.stopped = false) (fuel : Nat) (source : String) (result : Except Diagnostic Value)
    (he : s.execute fuel source = some (result, s')) :
    ∃ (k' : Script) (reads : List (String × Reply)), s'.console = .script k' ∧ s.Reads source reads s' ∧
      (∃ text, k'.transcript.output = k.transcript.output ++ text) ∧
      k'.transcript.prompts = k.transcript.prompts ++ (reads.map Prod.fst).toArray ∧
      reads.length ≤ k.inputs.length + 1 ∧
      k'.inputs = k.inputs.drop (min reads.length k.inputs.length) ∧
      reads.map Prod.snd = (k.inputs.map Reply.line ++ [Reply.cancelled]).take reads.length ∧
      ((∃ d, result = .error d ∧ d.fault = .inputCancelled) ↔ reads.length = k.inputs.length + 1) := by
  unfold Session.Reads
  cases hc : compile source with
  | error d =>
    rw [Session.execute_error hc] at he
    cases he
    refine ⟨k, [], hk, rfl, ⟨"", by simp⟩, by simp, by simp, by simp, rfl, ?_⟩
    -- A mistake in a text is no cancelled read.
    simp only [Except.error.injEq, exists_eq_left', List.length_nil]
    rcases compile_error hc with ⟨f, hf⟩ | ⟨f, hf⟩ <;> simp [hf]
  | ok program =>
    obtain ⟨hr, hf⟩ := Session.run_of_execute hc he
    have hbegin : Accounts k [] k (s.machine.begin program) := by
      refine ⟨hs, ⟨(s.machine.here, s.machine.calls), [.program 0 program], rfl, ⟨rfl, rfl⟩, rfl⟩, ⟨"", by simp⟩,
        by simp, by simp, rfl, rfl, ?_⟩
      simp [Machine.begin, Focus.isCancel]
    rw [hk] at hr
    obtain ⟨reads, k', hk', hreading, h⟩ := Accounts.run .refl hbegin hr
    refine ⟨k', reads, (Prod.mk.inj hk').2, hreading, h.output, h.prompts, h.within, ?_, h.replies, h.finished hf⟩
    rw [h.left]
    have hw := h.within
    by_cases hle : reads.length ≤ k.inputs.length
    · rw [Nat.min_eq_left hle]
    · rw [List.drop_eq_nil_of_le (by omega), List.drop_eq_nil_of_le (by omega)]

/-- Two reads. -/
def readTwice : String := "scan();scan();"

theorem compile_readTwice :
    compile readTwice = .ok [.input "scan" none ⟨0, 7, 1⟩, .input "scan" none ⟨7, 14, 1⟩] := by
  have hscan : scan readTwice = .ok
      [⟨.input, "scan", none, ⟨0, 4, 1⟩⟩, ⟨.leftParen, "(", none, ⟨4, 5, 1⟩⟩, ⟨.rightParen, ")", none, ⟨5, 6, 1⟩⟩,
        ⟨.semicolon, ";", none, ⟨6, 7, 1⟩⟩, ⟨.input, "scan", none, ⟨7, 11, 1⟩⟩, ⟨.leftParen, "(", none, ⟨11, 12, 1⟩⟩,
        ⟨.rightParen, ")", none, ⟨12, 13, 1⟩⟩, ⟨.semicolon, ";", none, ⟨13, 14, 1⟩⟩, .eof ⟨14, 14, 1⟩] :=
    (scan_eq_scanWithin _).trans rfl
  rw [compile, hscan]
  rfl

/-- With one line on the script, the first read takes it and the second one is cancelled. -/
theorem console_accounting_readTwice :
    ∃ (s' : Session) (d : Diagnostic) (reads : List (String × Reply)),
      (Session.new .empty .default (.script (.ofInputs ["a"]))).execute 20 readTwice = some (.error d, s') ∧
      d.fault = .inputCancelled ∧ reads.length = 2 ∧ reads.map Prod.snd = [.line "a", .cancelled] := by
  let s := Session.new .empty .default (.script (.ofInputs ["a"]))
  have hrun : (s.execute 20 readTwice).map (fun r => (r.1.map fun _ => ()).mapError Diagnostic.fault) =
      some (.error .inputCancelled) := by
    rw [Session.execute_ok compile_readTwice]
    rfl
  obtain ⟨⟨result, s'⟩, he, hfault⟩ := Option.map_eq_some_iff.1 hrun
  obtain ⟨d, rfl, hd⟩ : ∃ d, result = .error d ∧ d.fault = .inputCancelled := by
    cases result with
    | ok v => cases hfault
    | error d => exact ⟨d, rfl, Except.error.inj hfault⟩
  obtain ⟨k', reads, -, -, -, -, -, -, hreplies, hend⟩ :=
    console_accounting s s' (.ofInputs ["a"]) rfl rfl 20 readTwice (.error d) he
  have htwo : reads.length = 2 := hend.1 ⟨d, rfl, hd⟩
  rw [htwo] at hreplies
  exact ⟨s', d, reads, he, hd, htwo, hreplies⟩

end StepScript
