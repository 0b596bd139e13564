import StepScript.Console.Severity
import StepScript.Reply
import StepScript.Text.Lines

/-!
# A console that follows a script

Reads take the lines of a list in order and are cancelled once it is used up; everything written is
recorded.
-/

namespace StepScript

/-- What was written to a console and asked of it. -/
structure Transcript where
  /-- Plain output exactly as written. -/
  output : String
  /-- Lines of any other severity. -/
  messages : Array (Severity × String)
  prompts : Array String
  clears : Nat
deriving Inhabited

namespace Transcript

/-- Nothing yet. -/
def empty : Transcript := ⟨"", #[], #[], 0⟩

/-- The output line by line. -/
def lines (t : Transcript) : List String := Text.lines t.output

end Transcript

/-- A console with its lines yet to be read. -/
structure Script where
  inputs : List String
  transcript : Transcript
deriving Inhabited

namespace Script

/-- A console that will read the given lines. -/
def ofInputs (inputs : List String) : Script := ⟨inputs, .empty⟩

def write : Script → String → Script
  | ⟨inputs, ⟨output, messages, prompts, clears⟩⟩, text =>
    ⟨inputs, ⟨output ++ text, messages, prompts, clears⟩⟩

def writeLine : Script → String → Severity → Script
  | ⟨inputs, ⟨output, messages, prompts, clears⟩⟩, text, .output =>
    ⟨inputs, ⟨(output ++ text).push '\n', messages, prompts, clears⟩⟩
  | ⟨inputs, ⟨output, messages, prompts, clears⟩⟩, text, severity =>
    ⟨inputs, ⟨output, messages.push (severity, text), prompts, clears⟩⟩

def clear (s : Script) : Script :=
  { s with transcript := { s.transcript with clears := s.transcript.clears + 1 } }

/-- Reads a line. -/
def request (s : Script) (prompt : String) : Script × Reply :=
  let transcript := { s.transcript with prompts := s.transcript.prompts.push prompt }
  match s.inputs with
  | line :: rest => (⟨rest, transcript⟩, .line line)
  | [] => (⟨[], transcript⟩, .cancelled)

end Script

end StepScript
