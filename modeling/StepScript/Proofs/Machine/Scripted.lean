import StepScript.Machine.Hook

/-!
# Plain runs on a script

A plain run, under the hook that does nothing, reads the lines of a script and writes to its transcript. What it writes
is what its steps show (`Transcript.hear`); what it is asked leaves the written part of the transcript alone.

`Along m₀ t₀ lines t m` says that the plain run from `m₀` comes to the machine `m` once it has read `lines`, and that
it has then written what `t` has: whatever lines are left on the script, and however much fuel.

* It goes on with every step (`Along.step`) and every line that is read (`Along.answer`).
* Where the machine is finished, the run ends there (`Along.finished`).
-/

namespace StepScript

namespace Transcript

/-- What was written, and how often the console was cleared. -/
def written (t : Transcript) : String × Array (Severity × String) × Nat := (t.output, t.messages, t.clears)

/-- The transcript after what a step shows. -/
def hear (t : Transcript) : Option Event → Transcript
  | some (.write text) => { t with output := t.output ++ text }
  | some (.writeLine text) => { t with output := (t.output ++ text).push '\n' }
  | some .clear => { t with clears := t.clears + 1 }
  | _ => t

/-- The transcript after a read. -/
def ask (t : Transcript) (prompt : String) : Transcript := { t with prompts := t.prompts.push prompt }

/-- What is written depends on what was written before and on nothing else. -/
theorem written_hear {t t' : Transcript} (h : t.written = t'.written) (e : Option Event) :
    (t.hear e).written = (t'.hear e).written := by
  obtain ⟨output, messages, prompts, clears⟩ := t
  obtain ⟨output', messages', prompts', clears'⟩ := t'
  cases h
  cases e with
  | none => rfl
  | some e => cases e <;> rfl

end Transcript

namespace Machine

section Step

variable {m : Machine}

theorem isFinished_eq_false (hf : m.finished? = none) : m.isFinished = false := by
  rw [isFinished_eq, hf]
  rfl

/-- A watched step of a machine that has one to make. -/
theorem advance_eq {σ : Type} (o : Observer σ) (s : σ) (hw : m.waiting? = none) (hf : m.finished? = none) :
    m.advance o s =
      match m.step with
      | (m, none) => .going s m
      | (m, some event) =>
        match o.see s m event with
        | (s, verdict) =>
          match verdict.course with
          | .hold => .resting s (m.heed verdict)
          | _ => .going s (m.heed verdict) := by
  unfold advance
  split
  · rename_i hm
    rw [waiting?, hm] at hw
    cases hw
  · rw [isFinished_eq_false hf]
    rfl

/-- A plain step is a step of the machine, and the script hears of it. -/
theorem advance_plain (k : Script) (hw : m.waiting? = none) (hf : m.finished? = none) :
    m.advance Hook.idle.observer ((), .script k) =
      .going ((), .script ⟨k.inputs, k.transcript.hear m.step.2⟩) m.step.1 := by
  rw [advance_eq _ _ hw hf]
  obtain ⟨m', event⟩ := m.step
  cases event with
  | none => rfl
  | some e => cases e <;> rfl

/-- A plain read takes the next line of the script. -/
theorem advance_read {prompt : String} (hm : m.focus = .await prompt) (line : String) (rest : List String)
    (t : Transcript) :
    m.advance Hook.idle.observer ((), .script ⟨line :: rest, t⟩) =
      .going ((), .script ⟨rest, t.ask prompt⟩) (m.answer (.line line)) := by
  unfold advance
  rw [hm]
  rfl

/-- With no line left, a plain read is cancelled. -/
theorem advance_cancelled {prompt : String} (hm : m.focus = .await prompt) (t : Transcript) :
    m.advance Hook.idle.observer ((), .script ⟨[], t⟩) =
      .going ((), .script ⟨[], t.ask prompt⟩) (m.answer .cancelled) := by
  unfold advance
  rw [hm]
  rfl

/-- Where the machine is finished, a run rests. -/
theorem advance_finished {σ : Type} (o : Observer σ) (s : σ) {result : Except Diagnostic Value}
    (hf : m.finished? = some result) : m.advance o s = .resting s m := by
  unfold advance
  split
  · rename_i hm
    unfold finished? at hf
    rw [hm] at hf
    split at hf <;> simp_all
  · rw [isFinished_eq, hf]
    rfl

end Step

/-- The plain run from `m` on the script `k` comes to `m'` with the script `k'`. -/
def Leads (k : Script) (m : Machine) (k' : Script) (m' : Machine) : Prop :=
  ∃ n, ∀ fuel, m.run Hook.idle.observer (n + fuel) ((), .script k) =
    m'.run Hook.idle.observer fuel ((), .script k')

theorem Leads.refl (k : Script) (m : Machine) : Leads k m k m := ⟨0, fun fuel => by rw [Nat.zero_add]⟩

/-- A run goes on by a step. -/
theorem Leads.advance {k k' k'' : Script} {m m' m'' : Machine} (h : Leads k m k' m')
    (ha : m'.advance Hook.idle.observer ((), .script k') = .going ((), .script k'') m'') : Leads k m k'' m'' := by
  obtain ⟨n, hn⟩ := h
  refine ⟨n + 1, fun fuel => ?_⟩
  rw [Nat.add_assoc, Nat.add_comm 1 fuel, hn, run, ha]

/-- The plain run from `m₀` comes to `m` with `lines` read, having written what `t` has. -/
def Along (m₀ : Machine) (t₀ : Transcript) (lines : List String) (t : Transcript) (m : Machine) : Prop :=
  ∀ extra, ∃ t', t'.written = t.written ∧ Leads ⟨lines ++ extra, t₀⟩ m₀ ⟨extra, t'⟩ m

section Along

variable {m₀ m : Machine} {t₀ t : Transcript} {lines : List String}

theorem Along.refl (m₀ : Machine) (t₀ : Transcript) : Along m₀ t₀ [] t₀ m₀ :=
  fun extra => ⟨t₀, rfl, .refl ⟨extra, t₀⟩ m₀⟩

/-- A step takes the run along, and what it shows is written. -/
theorem Along.step (h : Along m₀ t₀ lines t m) (hw : m.waiting? = none) (hf : m.finished? = none) :
    Along m₀ t₀ lines (t.hear m.step.2) m.step.1 := by
  intro extra
  obtain ⟨t', ht, hl⟩ := h extra
  exact ⟨t'.hear m.step.2, Transcript.written_hear ht _, hl.advance (advance_plain ⟨extra, t'⟩ hw hf)⟩

/-- A line takes the run along, and nothing is written. -/
theorem Along.answer (h : Along m₀ t₀ lines t m) {prompt : String} (hm : m.focus = .await prompt) (line : String) :
    Along m₀ t₀ (lines ++ [line]) t (m.answer (.line line)) := by
  intro extra
  obtain ⟨t', ht, hl⟩ := h (line :: extra)
  rw [List.append_assoc]
  exact ⟨t'.ask prompt, ht, hl.advance (advance_read hm line extra t')⟩

/-- Where the machine is finished, the plain run ends. -/
theorem Along.finished (h : Along m₀ t₀ lines t m) {result : Except Diagnostic Value}
    (hf : m.finished? = some result) (extra : List String) :
    ∃ n t', t'.written = t.written ∧ ∀ fuel ≥ n,
      m₀.run Hook.idle.observer fuel ((), .script ⟨lines ++ extra, t₀⟩) = some (((), .script ⟨extra, t'⟩), m) := by
  obtain ⟨t', ht, n, hn⟩ := h extra
  refine ⟨n + 1, t', ht, fun fuel hfuel => ?_⟩
  obtain ⟨more, rfl⟩ := Nat.exists_eq_add_of_le hfuel
  rw [Nat.add_assoc, Nat.add_comm 1 more, hn, run, advance_finished _ _ hf]

end Along

end Machine

end StepScript
