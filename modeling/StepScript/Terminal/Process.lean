import StepScript.Terminal.Listing
import StepScript.Terminal.Options
import StepScript.Text.Blank

/-!
# Programs at a terminal

A process runs a script, talks to someone at a prompt, or takes someone through a debug session. It works in
small steps, each of which may print something; from time to time it wants a line, and in the end it exits
with a code.

- `Process.step` is a step, `Process.wants` says what the process wants, `Process.feed` gives it a line;
- `launch` is the process for the command line;
- `play` takes a process through a whole input.
-/

namespace StepScript.Terminal

open Debugger

/-- Something printed, on standard output or standard error. -/
inductive Chunk where
  | out (text : String)
  | err (text : String)

/-- What can be read from standard input. -/
inductive InputLine where
  /-- A line with the line feed that ends it, if any. -/
  | text (line : String)
  /-- A line that is not well-formed text. -/
  | malformed
  /-- The end of the input. -/
  | ended

/-- What a process wants from the outside. -/
inductive Want where
  | work
  | line
  | exit (code : UInt32)
deriving DecidableEq

/-- What clears the screen. -/
def clearSequence : String := "\x1b[2J\x1b[1;1H"

/-- The version of the program. -/
def version : String := "0.1.0"

/-- The commands of a debug session. -/
def debugHelp : String := "commands: s(tep) n(ext) o(ut) c(ontinue) b <line> q(uit)\n"

/-- What is said at the start of a conversation. -/
def banner : String :=
  "Flex Interpreter v" ++ version ++ "\nType 'exit' or press Ctrl+D to quit\n\n"

/-- How the program is called. -/
def helpText : String :=
  "Interpreter and stepping debugger for the Flex scripting language\n\n" ++
  "Usage: flex [OPTIONS] [FILE]\n\n" ++
  "Arguments:\n" ++
  "  [FILE]  The script file to execute\n\n" ++
  "Options:\n" ++
  "  -i, --interactive    Start in interactive REPL mode\n" ++
  "      --check          Report every syntax error without running the script\n" ++
  "      --debug          Step through the script in a terminal debug session\n" ++
  "  -b, --break <LINE>   Set a breakpoint before the debug session starts\n" ++
  "      --max-depth <N>  Maximum nesting of user function calls\n" ++
  "      --global-assign  Assignments to undeclared names create globals\n" ++
  "      --seed <N>       Seed for random()\n" ++
  "      --yield          Yield the thread on every loop iteration\n" ++
  "  -h, --help           Print help\n" ++
  "  -V, --version        Print version\n"

/-- Whether a span lies in a text of so many characters; the place just past its end counts. -/
def fits (length : Nat) (span : Span) : Bool :=
  span.start ≤ length && (span.stop ≤ span.start || span.stop - 1 ≤ length)

/-- A diagnostic on a text as it is printed. The help goes with the place in the text, so a diagnostic about
a place in another text, such as an earlier line of a conversation, has none. -/
def report (source : String) (d : Diagnostic) : List Chunk :=
  let help := match d.help with
    | some help =>
      if d.span.any (fits source.length) then [.err ("help: " ++ help ++ "\n")] else []
    | none => []
  .err ("Error: " ++ d.headline ++ "\n") :: help

/-- What an event of a run prints. -/
def eventText : Event → String
  | .write text => text
  | .writeLine text => text ++ "\n"
  | .clear => clearSequence
  | _ => ""

/-- An observer that collects what is printed and leaves reads open, after printing their prompt. -/
def printer : Observer String where
  see := fun out _ event => (out ++ eventText event, .proceed)
  ask := fun out prompt => (out ++ prompt, none)

/-- A debug session that collects what is printed. -/
def printerSink : Sink String where
  see := fun out event => (out ++ eventText event, false)

/-- The answer to a read: a line without its end, or nothing. -/
def InputLine.reply : InputLine → Reply
  | .text line => .line (Text.chomp line)
  | _ => .cancelled

/-- A process. `asked` says whether it has printed the prompt of the line that it wants. -/
inductive Process where
  | ended (code : UInt32)
  | script (m : Machine) (source : String) (asked : Bool)
  /-- A conversation, waiting for a line of program. -/
  | reading (m : Machine) (asked : Bool)
  /-- A conversation, running a line; `echo` says whether its value is printed. -/
  | replying (m : Machine) (source : String) (echo asked : Bool)
  | debugging (c : Controller String) (source : String) (asked : Bool)

namespace Process

/-- What a process wants. -/
def wants : Process → Want
  | ended code => .exit code
  | script _ _ asked => if asked then .line else .work
  | reading _ asked => if asked then .line else .work
  | replying _ _ _ asked => if asked then .line else .work
  | debugging _ _ asked => if asked then .line else .work

/-- A piece of standard output, unless it is empty. -/
def outChunk (text : String) : List Chunk := if text.isEmpty then [] else [.out text]

/-- One step of a script. -/
def stepScript (m : Machine) (source : String) : Process × List Chunk :=
  match m.advance printer "" with
  | .going out m => (script m source false, outChunk out)
  | .resting out m =>
    match m.finished? with
    | some (.ok _) => (ended 0, outChunk out)
    | some (.error d) => (ended 1, outChunk out ++ report source d)
    | none => (script m source true, outChunk out)

/-- One step of a line in a conversation. -/
def stepReply (m : Machine) (source : String) (echo : Bool) : Process × List Chunk :=
  match m.advance printer "" with
  | .going out m => (replying m source echo false, outChunk out)
  | .resting out m =>
    match m.finished? with
    | some (.ok v) =>
      (reading m false, outChunk (if echo then out ++ v.display m.store ++ "\n" else out))
    | some (.error d) => (reading m false, outChunk out ++ report source d)
    | none => (replying m source echo true, outChunk out)

/-- What is printed for the calls to the view since the last step. -/
def drainView (c : Controller String) (source : String) : String × Controller String :=
  let (calls, c) := c.takeView
  if calls.isEmpty then ("", c)
  else (String.join (calls.toList.map (viewText (Text.lines source) c.breakpoints)), c)

/-- What the program of a debug session printed since the last step. -/
def drainOutput (c : Controller String) : String × Controller String :=
  (c.console.getD "", { c with console := c.console.map fun _ => "" })

/-- The end of a debug session. -/
def closeSession (c : Controller String) (source : String) : Process × List Chunk :=
  match c.lastError with
  | some d => (ended 1, report source d)
  | none => (ended 0, [.out ("session " ++ c.state.name ++ "\n")])

/-- One step of a debug session: a step of its program, a prompt, or the end. -/
def stepDebug (c : Controller String) (source : String) : Process × List Chunk :=
  if c.isGoing then
    let (out, c) := drainOutput c.tick
    let (shown, c) := drainView c source
    (debugging c source false, outChunk (out ++ shown))
  else if c.isOpen then
    (debugging c source true, [.out (c.prompt.getD "(debug) ")])
  else closeSession c source

/-- One step. -/
def step : Process → Process × List Chunk
  | ended code => (ended code, [])
  | script m source false => stepScript m source
  | reading m false => (reading m true, [.out "> "])
  | replying m source echo false => stepReply m source echo
  | debugging c source false => stepDebug c source
  | p => (p, [])

/-! ## Lines -/

/-- A line of a conversation with the semicolon that may be missing at its end. -/
def completeLine (line : String) : String :=
  if line.endsWith ";" || line.endsWith "\x7d" then line else line ++ ";"

/-- Whether the value of a program is printed: only that of a single expression. -/
def echoes : Program → Bool
  | [.expr _ _] => true
  | _ => false

/-- A line of a conversation. -/
def feedReading (m : Machine) : InputLine → Process × List Chunk
  | .ended => (ended 0, [.out "\n"])
  | .malformed => (ended 0, [.err "Error reading input: stream did not contain valid UTF-8\n"])
  | .text line =>
    let line := String.ofList (Text.trim line.toList)
    if line.isEmpty then (reading m false, [])
    else if line = "exit" || line = "quit" then (ended 0, [.out "Goodbye!\n"])
    else
      let source := completeLine line
      match compile source with
      | .error d => (reading m false, report source d)
      | .ok program => (replying (m.begin program) source (echoes program) false, [])

/-- The lines with a line added or taken away, and whether it was added. -/
def toggle (lines : List Nat) (line : Nat) : List Nat × Bool :=
  if lines.contains line then (lines.filter (· != line), false) else (lines ++ [line], true)

/-- The command that sets or clears a breakpoint; `rest` is what follows its letter. -/
def feedBreakpoint (c : Controller String) (source : String) (rest : List Char) :
    Process × List Chunk :=
  match Options.number? (String.ofList (Text.trim rest)) with
  | none => (debugging c source false, [.out "usage: b <line>\n"])
  | some line =>
    let (breakpoints, added) := toggle c.breakpoints line
    let words := if added then "set at" else "cleared from"
    (debugging { c with breakpoints := breakpoints } source false,
      [.out ("breakpoint " ++ words ++ " line " ++ Number.natText line ++ "\n")])

/-- Takes over what a command made of the controller. -/
def obey (c : Controller String) (source : String) :
    Except InvalidState (Controller String) → Process × List Chunk
  | .ok c => (debugging c source false, [])
  | .error e => (debugging c source false, [.err ("Error: " ++ e.message ++ "\n")])

/-- A command of a debug session. -/
def feedCommand (c : Controller String) (source : String) (line : String) :
    Process × List Chunk :=
  let command := Text.trim line.toList
  match String.ofList command with
  | "s" | "step" => obey c source (c.resume .into)
  | "n" | "next" => obey c source (c.resume .over)
  | "o" | "out" => obey c source (c.resume .out)
  | "c" | "continue" => obey c source (c.resume .onward)
  | "q" | "quit" => (debugging c.stop source false, [])
  | _ =>
    match command with
    | 'b' :: rest => feedBreakpoint c source rest
    | _ => (debugging c source false, [.out debugHelp])

/-- A line of a debug session: an answer to the program if it waits for one, a command otherwise. -/
def feedDebug (c : Controller String) (source : String) : InputLine → Process × List Chunk
  | .text line =>
    let line := Text.chomp line
    if c.prompt.isSome then obey c source (c.provideInput line) else feedCommand c source line
  | _ => (debugging c.stop source false, [])

/-- Gives a process the line that it wants. -/
def feed (p : Process) (line : InputLine) : Process × List Chunk :=
  match p with
  | ended code => (ended code, [])
  | script m source _ => (script (m.answer line.reply) source false, [])
  | reading m _ => feedReading m line
  | replying m source echo _ => (replying (m.answer line.reply) source echo false, [])
  | debugging c source _ => feedDebug c source line

end Process

/-! ## Launching -/

/-- What is found under the name of a file. -/
inductive FileContent where
  | missing
  | unreadable (reason : String)
  | bytes (content : ByteArray)

/-- The text of a file, or what is said if there is none. -/
def sourceOf (path : String) : FileContent → Except String String
  | .missing => .error ("Error: File '" ++ path ++ "' not found\n")
  | .unreadable reason => .error ("Error reading file '" ++ path ++ "': " ++ reason ++ "\n")
  | .bytes content =>
    match String.fromUTF8? content with
    | some source => .ok source
    | none => .error ("Error reading file '" ++ path ++ "': stream did not contain valid UTF-8\n")

/-- The report of a check. -/
def checkReport (path source : String) : Process × List Chunk :=
  match check source with
  | [] => (.ended 0, [.out (path ++ ": no errors\n")])
  | problems =>
    (.ended 1, problems.flatMap (report source) ++
      [.err (path ++ ": " ++ Number.natText problems.length ++ " error(s)\n")])

/-- The start of a script. -/
def launchScript (config : Config) (entropy : Random) (source : String) : Process × List Chunk :=
  match compile source with
  | .error d => (.ended 1, report source d)
  | .ok program => (.script ((config.machine .standard entropy).begin program) source false, [])

/-- The start of a debug session. -/
def launchDebug (config : Config) (entropy : Random) (breakpoints : List Nat) (source : String) :
    Process × List Chunk :=
  let c : Controller String := .new .standard config printerSink breakpoints
  let (p, chunks) := Process.obey c source (c.start source "" entropy)
  (p, .out debugHelp :: chunks)

/-- The start of what the options ask for. A file, if one is named, has been looked up; `entropy` is the generator that
the system draws. -/
def launchOptions (o : Options) (entropy : Random) (lookup : String → FileContent) :
    Process × List Chunk :=
  let config := o.config
  match o.file with
  | none => (.reading (config.machine .standard entropy) false, [.out banner])
  | some path =>
    match sourceOf path (lookup path) with
    | .error words => (.ended 1, [.err words])
    | .ok source =>
      if o.check then checkReport path source
      else if o.debug then launchDebug config entropy o.breakpoints source
      else launchScript config entropy source

/-- The process for a command line, with what it prints at once. -/
def launch (args : Except Options.Early Options) (entropy : Random) (lookup : String → FileContent) :
    Process × List Chunk :=
  match args with
  | .error .version => (.ended 0, [.out ("flex " ++ version ++ "\n")])
  | .error .help => (.ended 0, [.out helpText])
  | .error .usage => (.ended 2, [])
  | .ok o => launchOptions o entropy lookup

/-! ## Whole inputs -/

/-- All that a process printed, and its exit code. -/
structure Played where
  code : UInt32
  out : String
  err : String

/-- Output with some more of it. -/
def Played.add : Played → List Chunk → Played
  | p, [] => p
  | ⟨code, out, err⟩, .out text :: rest => Played.add ⟨code, out ++ text, err⟩ rest
  | ⟨code, out, err⟩, .err text :: rest => Played.add ⟨code, out, err ++ text⟩ rest

/-- Takes a process through an input, within so many steps. After the last line the input has ended. -/
def play : Nat → Process → List InputLine → Played → Option Played
  | 0, _, _, _ => none
  | fuel + 1, p, input, played =>
    match p.wants with
    | .exit code => some { played with code := code }
    | .work =>
      let (p, chunks) := p.step
      play fuel p input (played.add chunks)
    | .line =>
      let (line, rest) := match input with
        | line :: rest => (line, rest)
        | [] => (.ended, [])
      let (p, chunks) := p.feed line
      play fuel p rest (played.add chunks)

end StepScript.Terminal
