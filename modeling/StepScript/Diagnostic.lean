import StepScript.Fault
import StepScript.Span

/-!
# Diagnostics

A diagnostic is a cause with the place it was met at and, for a fault of grammar, the token it was met
near.
-/

namespace StepScript

/-- Where a fault of grammar was met. -/
inductive Near where
  | finish
  | lexeme (text : String)
deriving DecidableEq

/-- How a place is named in a report. -/
def Near.text : Near → String
  | .finish => "end"
  | .lexeme text => "'" ++ text ++ "'"

/-- A cause and its place. -/
structure Diagnostic where
  fault : Fault
  span : Option Span
  near : Option Near
deriving DecidableEq

namespace Diagnostic

/-- A lexical fault at a place. -/
def lexical (span : Span) (fault : LexicalFault) : Diagnostic := ⟨.lexical fault, some span, none⟩

/-- A fault of grammar at a place. -/
def grammar (span : Span) (near : Near) (fault : GrammarFault) : Diagnostic :=
  ⟨.grammar fault, some span, some near⟩

/-- A fault of a running program at a place. -/
def runtime (span : Span) (fault : RuntimeFault) : Diagnostic := ⟨.runtime fault, some span, none⟩

/-- A stop noticed at a place. -/
def halted (span : Span) : Diagnostic := ⟨.halted, some span, none⟩

/-- A cancelled read at a place. -/
def inputCancelled (span : Span) : Diagnostic := ⟨.inputCancelled, some span, none⟩

def message (d : Diagnostic) : String := d.fault.message

def help (d : Diagnostic) : Option String := d.fault.help

/-- Whether the run was stopped from outside. -/
def isHalt (d : Diagnostic) : Bool := d.fault == .halted

/-- A diagnostic on one line: its line, heading, neighbourhood and message. -/
def describe (d : Diagnostic) : String :=
  let place := match d.span with
    | some span => "[line " ++ Number.natText span.line ++ "] "
    | none => ""
  let near := match d.near with
    | some near => " at " ++ near.text
    | none => ""
  place ++ d.fault.label ++ near ++ ": " ++ d.message

/-- The heading of a report: heading, message and neighbourhood. -/
def headline (d : Diagnostic) : String :=
  let near := match d.near with
    | some near => " (at " ++ near.text ++ ")"
    | none => ""
  d.fault.label ++ ": " ++ d.message ++ near

end Diagnostic

end StepScript
