import StepScript.Number.Read
import StepScript.Session

/-!
# Command-line options

Which program is to be run, and how.

- `Options.parse` reads the arguments from left to right. A request for the version or for help ends the
  reading at once; what does not fit is a usage error.
-/

namespace StepScript.Terminal

/-- What was asked for on the command line. -/
structure Options where
  file : Option String
  interactive : Bool
  check : Bool
  debug : Bool
  breakpoints : List Nat
  maxDepth : Option Nat
  globalAssign : Bool
  seed : Option Nat
  /-- Whether other work is let in after every turn of a loop; it makes no difference to a program. -/
  yields : Bool

namespace Options

/-- Nothing asked for. -/
def none : Options := ⟨.none, false, false, false, [], .none, false, .none, false⟩

/-- The options that stand alone. -/
inductive Switch where
  | interactive
  | check
  | debug
  | globalAssign
  | yields
  | version
  | help
deriving DecidableEq

/-- The options with a number. -/
inductive Setting where
  | break
  | maxDepth
  | seed
deriving DecidableEq

/-- The option behind a name. -/
inductive Key where
  | switch (s : Switch)
  | setting (s : Setting)
deriving DecidableEq

def longKey? : String → Option Key
  | "interactive" => some (.switch .interactive)
  | "check" => some (.switch .check)
  | "debug" => some (.switch .debug)
  | "global-assign" => some (.switch .globalAssign)
  | "yield" => some (.switch .yields)
  | "version" => some (.switch .version)
  | "help" => some (.switch .help)
  | "break" => some (.setting .break)
  | "max-depth" => some (.setting .maxDepth)
  | "seed" => some (.setting .seed)
  | _ => .none

def shortKey? : Char → Option Key
  | 'i' => some (.switch .interactive)
  | 'b' => some (.setting .break)
  | 'V' => some (.switch .version)
  | 'h' => some (.switch .help)
  | _ => .none

/-- Why reading the arguments ended early. -/
inductive Early where
  | version
  | help
  | usage
deriving DecidableEq

/-- A number of at most 64 bits: digits after an optional plus sign. -/
def number? (s : String) : Option Nat :=
  let digits := match s.toList with
    | '+' :: rest => rest
    | cs => cs
  if digits.isEmpty || !digits.all Number.isDigit then .none
  else
    let n := Number.ofDigits digits
    if n ≤ Number.maxUnsigned then some n else .none

/-- Turns on an option that stands alone; twice is an error. -/
def turnOn (o : Options) : Switch → Except Early Options
  | .interactive => if o.interactive then .error .usage else .ok { o with interactive := true }
  | .check => if o.check then .error .usage else .ok { o with check := true }
  | .debug => if o.debug then .error .usage else .ok { o with debug := true }
  | .globalAssign => if o.globalAssign then .error .usage else .ok { o with globalAssign := true }
  | .yields => if o.yields then .error .usage else .ok { o with yields := true }
  | .version => .error .version
  | .help => .error .help

/-- Gives an option its number; only breakpoints may come more than once. -/
def put (o : Options) (s : Setting) (text : String) : Except Early Options :=
  match number? text with
  | .none => .error .usage
  | some n =>
    match s with
    | .break => .ok { o with breakpoints := o.breakpoints ++ [n] }
    | .maxDepth => if o.maxDepth.isSome then .error .usage else .ok { o with maxDepth := some n }
    | .seed => if o.seed.isSome then .error .usage else .ok { o with seed := some n }

/-- Takes a plain argument as the file; there is room for one. -/
def takeFile (o : Options) (file : String) : Except Early Options :=
  if o.file.isSome then .error .usage else .ok { o with file := some file }

/-- A long option and the text after its equals sign. -/
def splitEquals (cs : List Char) : String × Option String :=
  match cs.dropWhile (· != '=') with
  | _ :: value => (String.ofList (cs.takeWhile (· != '=')), some (String.ofList value))
  | [] => (String.ofList cs, .none)

/-- How an argument is read: options that stand alone are in `result` already; an option still to get its
number waits for the next argument. -/
structure Intake where
  result : Options
  waiting : Option Setting

/-- A long option, after its dashes. -/
def readLong (o : Options) (cs : List Char) : Except Early Intake :=
  let (name, value) := splitEquals cs
  match longKey? name, value with
  | some (.switch s), .none => do pure ⟨← o.turnOn s, .none⟩
  | some (.setting s), some value => do pure ⟨← o.put s value, .none⟩
  | some (.setting s), .none => .ok ⟨o, some s⟩
  | _, _ => .error .usage

/-- Short options side by side, after their dash. The rest after one with a number is that number. -/
def readShort (o : Options) : List Char → Except Early Intake
  | [] => .ok ⟨o, .none⟩
  | c :: cs =>
    match shortKey? c with
    | some (.switch s) => do
      let o ← o.turnOn s
      readShort o cs
    | some (.setting s) =>
      match cs with
      | [] => .ok ⟨o, some s⟩
      | '=' :: value => do pure ⟨← o.put s (String.ofList value), .none⟩
      | value => do pure ⟨← o.put s (String.ofList value), .none⟩
    | .none => .error .usage

/-- Reads the arguments that follow; after two dashes alone all of them are plain. -/
def readFrom (o : Options) (plain : Bool) (waiting : Option Setting) :
    List String → Except Early Options
  | [] => if waiting.isSome then .error .usage else .ok o
  | arg :: rest => do
    if plain then
      if waiting.isSome then .error .usage
      else
        let o ← o.takeFile arg
        readFrom o true .none rest
    else
      match arg.toList with
      | ['-', '-'] => readFrom o true waiting rest
      | '-' :: '-' :: name =>
        if waiting.isSome then .error .usage
        else
          let p ← o.readLong name
          readFrom p.result false p.waiting rest
      | '-' :: c :: cs =>
        if waiting.isSome then .error .usage
        else
          let p ← o.readShort (c :: cs)
          readFrom p.result false p.waiting rest
      | _ =>
        match waiting with
        | some s =>
          let o ← o.put s arg
          readFrom o false .none rest
        | .none =>
          let o ← o.takeFile arg
          readFrom o false .none rest

/-- Whether the options go together: checking and debugging need a file and exclude each other, and
breakpoints need debugging. A check, which rules debugging out, waives that need and passes the breakpoints
over. -/
def consistent (o : Options) : Bool :=
  (!o.check || o.file.isSome) && (!o.debug || o.file.isSome) && !(o.check && o.debug) &&
    (o.breakpoints.isEmpty || o.debug || o.check)

/-- The options that the arguments spell. -/
def parse (args : List String) : Except Early Options := do
  let o ← readFrom none false .none args
  if o.consistent then pure o else .error .usage

/-- How programs are to be run. -/
def config (o : Options) : Config :=
  { maxCallDepth := o.maxDepth.getD defaultMaxCallDepth
    assignScope := if o.globalAssign then .global else .current
    seed := o.seed.map Nat.toUInt64 }

end Options

end StepScript.Terminal
