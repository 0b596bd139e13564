import StepScript.Main
import StepScript.Proofs.Debugger.Transparency
import StepScript.Proofs.Grammar.Rendering
import StepScript.Proofs.Machine.Home
import StepScript.Tree.Outline
import StepScript.Proofs.Machine.Names
import StepScript.Proofs.Debugger.Rule
import StepScript.Proofs.Debugger.Pauses
import StepScript.Proofs.Debugger.Onward
import StepScript.Proofs.Debugger.Breakpoints
import StepScript.Proofs.Machine.Bodies
import StepScript.Proofs.Debugger.Loops
import StepScript.Proofs.Debugger.Standing
import StepScript.Proofs.Grammar.Recovery
import StepScript.Proofs.Token.Tiling
import StepScript.Proofs.Token.Longest
import StepScript.Proofs.Grammar.Layout
import StepScript.Proofs.Debugger.Finality
import StepScript.Proofs.Machine.Places
import StepScript.Proofs.Machine.Rooted
import StepScript.Proofs.Machine.Separation
import StepScript.Proofs.Machine.Accounting
import StepScript.Proofs.Machine.CallStack
import StepScript.Proofs.Token.Faults
import StepScript.Proofs.Tree.Nodes
import StepScript.Proofs.Grammar.Progress
import StepScript.Proofs.Grammar.Spans
import StepScript.Proofs.Machine.Folding
import StepScript.Proofs.Machine.ForLoops
import StepScript.Proofs.Machine.Scoping
import StepScript.Proofs.Machine.Listing
import StepScript.Proofs.Machine.Keywords
import StepScript.Proofs.Machine.TopLevel
import StepScript.Proofs.Value.Showing
import StepScript.Proofs.Machine.Lexical
import StepScript.Proofs.Debugger.Renewal
import StepScript.Proofs.Number.Rational
import StepScript.Proofs.Text.Searching
import StepScript.Proofs.Text.Slicing
import StepScript.Proofs.Builtin.Texts
import StepScript.Proofs.Value.Lists
import StepScript.Proofs.Machine.Arrays
import StepScript.Proofs.Terminal.Completion
import StepScript.Proofs.Console.Delivery
import StepScript.Proofs.Number.Leading
