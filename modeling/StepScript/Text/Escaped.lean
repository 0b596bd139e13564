import StepScript.Text.Quoted

/-!
# Text with escapes

A text between double quotes in which only the quote, the backslash and the control characters below the
space are escaped, the common ones by a letter and the others by four hexadecimal digits. Texts stand so in outlines of
trees.
-/

namespace StepScript.Text

/-- One character between double quotes. -/
def escapedChar (c : Char) : List Char :=
  match c with
  | '"' => ['\\', '"']
  | '\\' => ['\\', '\\']
  | '\x08' => ['\\', 'b']
  | '\x0c' => ['\\', 'f']
  | '\n' => ['\\', 'n']
  | '\r' => ['\\', 'r']
  | '\t' => ['\\', 't']
  | c =>
    if c.toNat < 0x20 then
      let digits := hex c.toNat
      '\\' :: 'u' :: (List.replicate (4 - digits.length) '0' ++ digits)
    else [c]

/-- The text between double quotes. -/
def escaped (s : String) : String :=
  String.ofList ('"' :: (s.toList.flatMap escapedChar ++ ['"']))

end StepScript.Text
