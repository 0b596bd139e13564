/-!
# Places in a source text

A span is a range of character positions, counted from zero, with the line its first character is on,
counted from one.
-/

namespace StepScript

/-- The characters from `start` up to, but not including, `stop`; `line` is the line of `start`. -/
structure Span where
  start : Nat
  stop : Nat
  line : Nat
deriving DecidableEq, Inhabited

namespace Span

/-- The span of the one character at `pos`. -/
def single (pos line : Nat) : Span := ⟨pos, pos + 1, line⟩

/-- From the start of `s` to the later of the two ends; the line stays that of `s`. -/
def through (s t : Span) : Span := ⟨s.start, max t.stop s.stop, s.line⟩

@[simp] theorem through_start (s t : Span) : (s.through t).start = s.start := rfl

@[simp] theorem through_line (s t : Span) : (s.through t).line = s.line := rfl

/-- A joined span reaches to the end of both. -/
theorem le_through_stop (s t : Span) : s.stop ≤ (s.through t).stop ∧ t.stop ≤ (s.through t).stop := by
  simp only [through]
  omega

end Span

end StepScript
