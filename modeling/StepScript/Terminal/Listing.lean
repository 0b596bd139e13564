import StepScript.Debugger.Controller
import StepScript.Text.Lines

/-!
# What a terminal shows of a debug session
-/

namespace StepScript.Terminal

open Debugger

/-- A number at the right edge of a column of four. -/
def column (n : Nat) : String :=
  let digits := Number.natText n
  String.ofList (List.replicate (4 - digits.length) ' ') ++ digits

/-- One line of the source, marked if it is the current one and if it has a breakpoint. -/
def listingLine (source : List String) (breakpoints : List Nat) (current number : Nat) : String :=
  let marker := if number = current then "->" else "  "
  let dot := if breakpoints.contains number then "*" else " "
  marker ++ dot ++ " " ++ column number ++ " | " ++ source.getD (number - 1) "" ++ "\n"

/-- The source around the current line, two lines to either side. -/
def listing (source : List String) (breakpoints : List Nat) (current : Nat) : String :=
  let first := max (current - 2) 1
  let last := min (current + 2) source.length
  String.join ((List.range' first (last + 1 - first)).map (listingLine source breakpoints current))

/-- The variables, if there are any, and the calls in progress. -/
def snapshotText (s : Snapshot) : String :=
  let locals :=
    if s.locals.isEmpty then ""
    else
      "  variables:\n" ++ String.join (s.locals.map fun e => "    " ++ e.1 ++ " = " ++ e.2 ++ "\n")
  locals ++ "  stack: " ++ String.intercalate " <- " s.callStack ++ "\n"

/-- What the terminal prints when its view is told something. -/
def viewText (source : List String) (breakpoints : List Nat) : ViewCall → String
  | .highlight line => listing source breakpoints line
  | .snapshot s => snapshotText s
  | .clear => ""

end StepScript.Terminal
