import StepScript.Terminal.Input

/-!
# The command line

Reads the arguments, the file and standard input, and prints what the process says as it says it.
-/

open StepScript.Terminal

/-- The code of the system for a directory where a file is needed. -/
def directoryCode : UInt32 := 21

/-- Looks a file up. A path that goes on after a file leads nowhere. -/
def lookUpFile (path : String) : IO FileContent := do
  try
    let content ← IO.FS.readBinFile path
    pure (.bytes content)
  catch e =>
    match e with
    | .noFileOrDirectory .. => pure .missing
    | .inappropriateType _ code _ =>
      pure (if code = directoryCode then .unreadable "Is a directory (os error 21)" else .missing)
    | e => pure (.unreadable (toString e))

/-- Prints what a process says. -/
def printChunks (chunks : List Chunk) : IO Unit := do
  for chunk in chunks do
    match chunk with
    | .out text =>
      let out ← IO.getStdout
      out.putStr text
      out.flush
    | .err text => (← IO.getStderr).putStr text

/-- The bytes of a line of standard input. -/
partial def readLineBytes (input : IO.FS.Stream) (line : List UInt8) : IO (List UInt8) := do
  let bytes ← input.read 1
  match bytes.toList with
  | [] => pure line.reverse
  | b :: _ => if b = 10 then pure (b :: line).reverse else readLineBytes input (b :: line)

/-- Lets a process work to its end. -/
partial def serve (p : Process) : IO UInt32 := do
  match p.wants with
  | .exit code => pure code
  | .work =>
    let (p, chunks) := p.step
    printChunks chunks
    serve p
  | .line =>
    let line ← readLineBytes (← IO.getStdin) []
    let (p, chunks) := p.feed (InputLine.ofBytes line)
    printChunks chunks
    serve p

def main (args : List String) : IO UInt32 := do
  let entropy ← IO.rand 0 (Nat.pow 2 62)
  let options := Options.parse args
  let content ← match options with
    | .ok { file := some path, .. } => lookUpFile path
    | _ => pure .missing
  let (p, chunks) := launch options (.ofSeed entropy.toUInt64) fun _ => content
  printChunks chunks
  serve p
