import StepScript.Diagnostic
import StepScript.Number.Read
import StepScript.Token

/-!
# Splitting a text into tokens

At every position the text starts with a token, with something to skip, or with something that is
neither. `scanItem` decides which from the first character and says how many more belong to it, always as
many as can; `scan` does so from the start of the text to its end.

Since an item is the first character and the `extra` ones after it, the items lie side by side and cover
the text.
-/

namespace StepScript

/-- Letters and the underscore begin a word. -/
def isWordStart (c : Char) : Bool :=
  ('a' ≤ c && c ≤ 'z') || ('A' ≤ c && c ≤ 'Z') || c == '_'

/-- Words go on with letters, digits and underscores. -/
def isWordPart (c : Char) : Bool := isWordStart c || Number.isDigit c

/-- What an item is: something skipped, a sign or word with no value, a number or a string. -/
inductive ItemShape where
  | skipped
  | sign (kind : TokenKind)
  | word
  | number
  | string
deriving DecidableEq

/-- An item at the head of a text: its shape and how many characters it has after the first. -/
structure Item where
  shape : ItemShape
  extra : Nat

/-- A sign that is longer when an equals sign follows. -/
def signWithEqual (short long : TokenKind) (rest : List Char) : Item :=
  match rest with
  | '=' :: _ => ⟨.sign long, 1⟩
  | _ => ⟨.sign short, 0⟩

/-- How many characters a fraction adds after the whole digits: a point counts only before a digit. -/
def fractionLength (rest : List Char) : Nat :=
  match rest with
  | '.' :: d :: ds => if Number.isDigit d then 2 + (ds.takeWhile Number.isDigit).length else 0
  | _ => 0

/-- How many characters follow the first digit of a number. -/
def numberExtra (rest : List Char) : Nat :=
  let whole := (rest.takeWhile Number.isDigit).length
  whole + fractionLength (rest.drop whole)

/-- The item that starts with `c` and goes on in `rest`. -/
def scanItem (c : Char) (rest : List Char) : Except LexicalFault Item :=
  match c with
  | '(' => .ok ⟨.sign .leftParen, 0⟩
  | ')' => .ok ⟨.sign .rightParen, 0⟩
  | '{' => .ok ⟨.sign .leftBrace, 0⟩
  | '}' => .ok ⟨.sign .rightBrace, 0⟩
  | '[' => .ok ⟨.sign .leftBracket, 0⟩
  | ']' => .ok ⟨.sign .rightBracket, 0⟩
  | ',' => .ok ⟨.sign .comma, 0⟩
  | '.' => .ok ⟨.sign .dot, 0⟩
  | '-' => .ok ⟨.sign .minus, 0⟩
  | '+' => .ok ⟨.sign .plus, 0⟩
  | ';' => .ok ⟨.sign .semicolon, 0⟩
  | '*' => .ok ⟨.sign .star, 0⟩
  | '/' => .ok ⟨.sign .slash, 0⟩
  | '!' => .ok (signWithEqual .bang .bangEqual rest)
  | '=' => .ok (signWithEqual .equal .equalEqual rest)
  | '<' => .ok (signWithEqual .less .lessEqual rest)
  | '>' => .ok (signWithEqual .greater .greaterEqual rest)
  | '#' => .ok ⟨.skipped, (rest.takeWhile (· != '\n')).length⟩
  | ' ' => .ok ⟨.skipped, 0⟩
  | '\r' => .ok ⟨.skipped, 0⟩
  | '\t' => .ok ⟨.skipped, 0⟩
  | '\n' => .ok ⟨.skipped, 0⟩
  | c =>
    if c == '"' || c == '\'' then
      let body := rest.takeWhile (· != c)
      match rest.drop body.length with
      | [] => .error (.unterminated c)
      | _ :: _ => .ok ⟨.string, body.length + 1⟩
    else if Number.isDigit c then .ok ⟨.number, numberExtra rest⟩
    else if isWordStart c then .ok ⟨.word, (rest.takeWhile isWordPart).length⟩
    else .error (.unexpected c)

/-- How many lines a piece of text ends. -/
def lineBreaks (text : List Char) : Nat := text.count '\n'

/-- The token for an item spelled by `text`, if it is one. -/
def Item.token? (shape : ItemShape) (text : List Char) (span : Span) : Option Token :=
  match shape with
  | .skipped => none
  | .sign kind => some ⟨kind, String.ofList text, none, span⟩
  | .word => some ⟨wordKind (String.ofList text), String.ofList text, none, span⟩
  | .number => some ⟨.number, String.ofList text, some (.number (Number.ofLiteral text)), span⟩
  | .string =>
    some ⟨.string, String.ofList text, some (.text (String.ofList ((text.drop 1).dropLast))), span⟩

/-- The place of a lexical fault met at `pos`: the character that was not expected, or everything from the
quote that is not matched. -/
def LexicalFault.span (pos line length : Nat) : LexicalFault → Span
  | .unexpected _ => .single pos line
  | .unterminated _ => ⟨pos, pos + length, line⟩

/-- Tokens of the rest of a text, which starts at `pos` on line `line`; `done` holds the tokens before it,
the latest first. -/
def scanFrom (pos line : Nat) (done : List Token) (rest : List Char) : Except Diagnostic (List Token) :=
  match rest with
  | [] => .ok ((Token.eof ⟨pos, pos, line⟩ :: done).reverse)
  | c :: cs =>
    match scanItem c cs with
    | .error fault => .error (.lexical (fault.span pos line (cs.length + 1)) fault)
    | .ok item =>
      let text := c :: cs.take item.extra
      let next := pos + text.length
      let done := match Item.token? item.shape text ⟨pos, next, line⟩ with
        | some token => token :: done
        | none => done
      scanFrom next (line + lineBreaks text) done (cs.drop item.extra)
termination_by rest.length
decreasing_by
  simp only [List.length_drop, List.length_cons]
  omega

/-- The tokens of a text, ended by one for its end, or the first thing that is no token. -/
def scan (source : String) : Except Diagnostic (List Token) := scanFrom 0 1 [] source.toList

end StepScript
