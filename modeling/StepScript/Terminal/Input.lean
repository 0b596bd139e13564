import StepScript.Terminal.Process

/-!
# Lines of raw input

Standard input comes as bytes. A line ends with a line feed, which belongs to it; each line is well-formed
text or not on its own.
-/

namespace StepScript.Terminal

/-- A line from its bytes. -/
def InputLine.ofBytes (line : List UInt8) : InputLine :=
  if line.isEmpty then .ended
  else
    match String.fromUTF8? ⟨line.toArray⟩ with
    | some s => .text s
    | none => .malformed

/-- The lines of the rest of the input, the current one so far in reverse. -/
def inputLinesFrom (line : List UInt8) (done : List InputLine) : List UInt8 → List InputLine
  | [] => if line.isEmpty then done.reverse else (InputLine.ofBytes line.reverse :: done).reverse
  | b :: bs =>
    if b = 10 then inputLinesFrom [] (InputLine.ofBytes (b :: line).reverse :: done) bs
    else inputLinesFrom (b :: line) done bs

/-- The lines of an input. -/
def inputLines (bytes : List UInt8) : List InputLine := inputLinesFrom [] [] bytes

/-- The whole run of a command line on an input, within so many steps. -/
def playCommand (fuel : Nat) (args : List String) (lookup : String → FileContent)
    (input : List UInt8) (entropy : Random := .ofSeed 0) : Option Played :=
  let (p, chunks) := launch (Options.parse args) entropy lookup
  play fuel p (inputLines input) (Played.add ⟨0, "", ""⟩ chunks)

end StepScript.Terminal
