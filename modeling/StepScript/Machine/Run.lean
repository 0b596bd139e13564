import StepScript.Machine.Step

/-!
# Runs

A run is the repetition of steps under the eyes of an observer. The observer keeps a state of its own,
is shown every event, answers reads, and decides after each event whether the run goes on, is held, is told
to stop, or is refused. It has no other influence on the machine.

- `advance` is one watched step;
- `run` repeats it until the work is finished, a read is left open or the observer holds; with too little
  fuel it gives nothing.
-/

namespace StepScript

/-- What becomes of a run after an event. -/
inductive Course where
  | proceed
  /-- Control goes back to whoever started the run. -/
  | hold
  /-- The statement that was announced fails. -/
  | refuse (d : Diagnostic)

/-- An observer's decision: whether the run is told to stop, and how it goes on. -/
structure Verdict where
  stop : Bool
  course : Course

namespace Verdict

/-- Let the run go on. -/
def proceed : Verdict := ⟨false, .proceed⟩

/-- Hold the run. -/
def hold : Verdict := ⟨false, .hold⟩

end Verdict

/-- Someone who watches a run and answers its reads. -/
structure Observer (σ : Type) where
  see : σ → Machine → Event → σ × Verdict
  /-- The answer to a read, or nothing if it is left open. -/
  ask : σ → String → σ × Option Reply

/-- How a run stands after a step: it goes on, or it is finished, held or left with an open read. -/
inductive Progress (σ : Type) where
  | going (s : σ) (m : Machine)
  | resting (s : σ) (m : Machine)

namespace Machine

/-- The machine after a decision. -/
def heed (m : Machine) (v : Verdict) : Machine :=
  let m := if v.stop then m.stop else m
  match v.course with
  | .refuse d => m.refuse d
  | _ => m

/-- One step under the eyes of an observer, or one answer to a read. -/
def advance {σ : Type} (o : Observer σ) (s : σ) (m : Machine) : Progress σ :=
  match m.focus with
  | .await prompt =>
    match o.ask s prompt with
    | (s, some reply) => .going s (m.answer reply)
    | (s, none) => .resting s m
  | _ =>
    if m.isFinished then .resting s m
    else
      match m.step with
      | (m, none) => .going s m
      | (m, some event) =>
        match o.see s m event with
        | (s, verdict) =>
          match verdict.course with
          | .hold => .resting s (m.heed verdict)
          | _ => .going s (m.heed verdict)

/-- Repeats steps until the run comes to rest, at most `fuel` of them. Gives nothing if that is not
enough. -/
def run {σ : Type} (o : Observer σ) : (fuel : Nat) → σ → Machine → Option (σ × Machine)
  | 0, _, _ => none
  | fuel + 1, s, m =>
    match advance o s m with
    | .going s m => run o fuel s m
    | .resting s m => some (s, m)

/-- More steps than any run that a host waits for can make. It is for hosts only; what is said of runs is said of any
number of steps. -/
def ampleFuel : Nat := Nat.pow 2 62

end Machine

end StepScript
