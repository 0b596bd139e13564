/-!
# Lines of a text

A line ends at a line feed, and a carriage return right before it goes with it. A text that ends with a
line feed has no empty line after it.
-/

namespace StepScript.Text

/-- A line without the carriage return that ended it. -/
def dropReturn (reversed : List Char) : List Char :=
  match reversed with
  | '\r' :: rest => rest.reverse
  | line => line.reverse

/-- The lines of the rest of a text, the current line so far in reverse. -/
def linesFrom (line : List Char) (done : List String) : List Char → List String
  | [] => if line.isEmpty then done.reverse else (String.ofList line.reverse :: done).reverse
  | '\n' :: cs => linesFrom [] (String.ofList (dropReturn line) :: done) cs
  | c :: cs => linesFrom (c :: line) done cs

/-- The lines of a text. -/
def lines (s : String) : List String := linesFrom [] [] s.toList

/-- A line as read from a terminal, without the line feeds and carriage returns that end it. -/
def chomp (s : String) : String :=
  String.ofList ((s.toList.reverse.dropWhile fun c => c == '\n' || c == '\r').reverse)

end StepScript.Text
