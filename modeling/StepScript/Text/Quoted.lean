import StepScript.Text.Printable

/-!
# Quoted text

A text between double quotes in which the quote, the backslash and everything that does not show by
itself is escaped.
-/

namespace StepScript.Text

/-- The lower-case hexadecimal digits of `n`. -/
def hex (n : Nat) : List Char := Nat.toDigits 16 n

/-- One character inside quotes. -/
def quotedChar (c : Char) : List Char :=
  match c with
  | '\x00' => ['\\', '0']
  | '\t' => ['\\', 't']
  | '\r' => ['\\', 'r']
  | '\n' => ['\\', 'n']
  | '"' => ['\\', '"']
  | '\\' => ['\\', '\\']
  | c => if isExtending c || !isShown c then '\\' :: 'u' :: '{' :: (hex c.toNat ++ ['}']) else [c]

/-- The text between double quotes. -/
def quoted (s : String) : String :=
  String.ofList ('"' :: (s.toList.flatMap quotedChar ++ ['"']))

end StepScript.Text
