import StepScript.Number.Text

/-!
# What can go wrong

Every failure has a cause, a value of one of the types below; the words for it are fixed here and nowhere
else. Causes are told apart by the stage that meets them: reading tokens, reading statements, running.

- `Fault` joins the stages with the two ways a run ends from outside, a cancelled read and a stop;
- `Fault.message` and `Fault.help` give the words.
-/

namespace StepScript

/-- The kinds of values a program handles. -/
inductive Kind where
  | null
  | boolean
  | number
  | string
  | array
  | function
deriving DecidableEq

/-- The name of a kind, as programs see it. -/
def Kind.name : Kind → String
  | .null => "null"
  | .boolean => "boolean"
  | .number => "number"
  | .string => "string"
  | .array => "array"
  | .function => "function"

/-- Why a text does not split into tokens. -/
inductive LexicalFault where
  | unexpected (c : Char)
  | unterminated (quote : Char)
deriving DecidableEq

namespace LexicalFault

def message : LexicalFault → String
  | unexpected c => "Unexpected character '" ++ c.toString ++ "'"
  | unterminated _ => "Unterminated string"

def help : LexicalFault → Option String
  | unexpected _ => none
  | unterminated quote => some ("Close the string with a matching " ++ quote.toString ++ " quote.")

end LexicalFault

/-- What stands where an expression should start. -/
inductive Misplaced where
  | nothing
  | rightParen
  | rightBrace
  | rightBracket
  | function
  | other
deriving DecidableEq

/-- Advice on how an expression starts, by what was met instead. -/
def Misplaced.help : Misplaced → String
  | nothing =>
    "Expected an expression here. Check for unmatched parentheses, brackets, or incomplete statements."
  | rightParen => "Found ')' without matching '('. Check for unbalanced parentheses."
  | rightBrace => "Found '\x7d' without matching '\x7b'. Check for unbalanced braces."
  | rightBracket => "Found ']' without matching '['. Check for unbalanced brackets."
  | function => "Functions can only be declared as statements: function name() \x7b ... \x7d"
  | other => "Expected a literal value, variable, or parenthesized expression here."

/-- Why a sequence of tokens is not a program: what was looked for and not found, a list that is too
long, a target that cannot be assigned, or a literal without its value. -/
inductive GrammarFault where
  | functionName
  | functionOpen
  | tooManyParameters
  | parameterName
  | parametersClose
  | functionBody
  | blockClose
  | ifOpen
  | ifClose
  | whileOpen
  | whileClose
  | forOpen
  | forCondition
  | forClose
  | returnEnd
  | printOpen (keyword : String)
  | printClose
  | printEnd
  | inputOpen (keyword : String)
  | inputClose (keyword : String)
  | inputEnd (keyword : String)
  | expressionEnd
  | assignmentTarget
  | indexClose
  | propertyName
  | tooManyArguments
  | argumentsClose
  | expression (found : Misplaced)
  | literal
  | groupClose
  | arrayClose
deriving DecidableEq

namespace GrammarFault

def message : GrammarFault → String
  | functionName => "Expected function name."
  | functionOpen => "Expected '(' after function name."
  | tooManyParameters => "Cannot have more than 255 parameters."
  | parameterName => "Expected parameter name."
  | parametersClose => "Expected ')' after parameters."
  | functionBody => "Expected '\x7b' before function body."
  | blockClose => "Expected '\x7d' after block."
  | ifOpen => "Expected '(' after 'if'."
  | ifClose => "Expected ')' after if condition."
  | whileOpen => "Expected '(' after 'while'."
  | whileClose => "Expected ')' after while condition."
  | forOpen => "Expected '(' after 'for'."
  | forCondition => "Expected ';' after loop condition."
  | forClose => "Expected ')' after for clauses."
  | returnEnd => "Expected ';' after return value."
  | printOpen keyword => "Expected '(' after '" ++ keyword ++ "'."
  | printClose => "Expected ')' after print value."
  | printEnd => "Expected ';' after print statement."
  | inputOpen keyword => "Expected '(' after '" ++ keyword ++ "'."
  | inputClose keyword => "Expected ')' after " ++ keyword ++ " arguments."
  | inputEnd keyword => "Expected ';' after " ++ keyword ++ " statement."
  | expressionEnd => "Expected ';' after expression."
  | assignmentTarget => "Invalid assignment target."
  | indexClose => "Expected ']' after index."
  | propertyName => "Expected property name after '.'."
  | tooManyArguments => "Cannot have more than 255 arguments."
  | argumentsClose => "Expected ')' after arguments."
  | expression _ => "Expected expression."
  | literal => "Malformed literal."
  | groupClose => "Expected ')' after expression."
  | arrayClose => "Expected ']' after array elements."

def help : GrammarFault → Option String
  | functionName => some "Functions are declared as: function name(a, b) \x7b ... \x7d"
  | functionBody => some "A function body is a block: function name() \x7b ... \x7d"
  | blockClose => some "Block statements must be closed with '\x7d' after the opening '\x7b'."
  | ifOpen =>
    some "If statements require parentheses around the condition: if (condition) \x7b ... \x7d"
  | ifClose => some "If conditions must be enclosed in parentheses: if (condition) \x7b ... \x7d"
  | printOpen keyword => some ("Write output as: " ++ keyword ++ "(value);")
  | inputEnd keyword =>
    some ("To keep the line that was read, assign it: name = " ++ keyword ++ "(\"prompt\");")
  | expressionEnd => some "Every statement ends with a semicolon."
  | assignmentTarget =>
    some ("Only variables and array elements can be assigned to. " ++
      "Examples: 'x = 10' or 'items[0] = 10'")
  | propertyName => some "Property access looks like: items.length"
  | argumentsClose => some "Separate arguments with commas and close the call with ')'."
  | expression found => some found.help
  | groupClose => some "Every opening parenthesis '(' must have a matching closing parenthesis ')'."
  | arrayClose => some "Array literals look like [1, 2, 3]."
  | _ => none

end GrammarFault

/-- How many arguments a builtin takes when it counts them itself. -/
inductive Count where
  | between (least most : Nat)
  | atLeast (least : Nat)
deriving DecidableEq

namespace Count

/-- Whether a number of arguments fits. -/
def admits : Count → Nat → Bool
  | between least most, n => least ≤ n && n ≤ most
  | atLeast least, n => least ≤ n

/-- The words for a count. -/
def words : Count → String
  | between least most => Number.natText least ++ " or " ++ Number.natText most ++ " arguments"
  | atLeast least =>
    "at least " ++ Number.natText least ++ (if least = 1 then " argument" else " arguments")

end Count

/-- Why a running program fails. -/
inductive RuntimeFault where
  | undefinedVariable (name : String)
  | negation
  | arithmetic (left right : Kind)
  | addition (left right : Kind)
  | divisionByZero
  | arity (expected got : Nat)
  | callDepth (most : Nat)
  | notCallable (kind : Kind)
  | propertyOfNull (name : String)
  | undefinedProperty (name : String)
  | indexOfNull
  | notIndexable (kind : Kind)
  | assignToNull
  | assignProperty (name : String) (kind : Kind)
  | assignIndex (kind : Kind)
  | outOfBounds (index : String)
  | invalidIndex (index : String)
  | indexKind (kind : Kind)
  | indexTooLarge (index : Nat)
  | argumentCount (builtin : String) (count : Count)
  | argumentKind (builtin : String) (kind : Kind)
  | argumentMissing (builtin : String)
  | lengthOf (kind : Kind)
  | negativeRoot
  | negativeRepeat
  | stringLength
  | arrayLength (length : Int)
  | notAnArray (builtin : String) (kind : Kind)
  /-- An observer of the run refused to let it go on, in its own words. -/
  | refused (words : String)
deriving DecidableEq

namespace RuntimeFault

def message : RuntimeFault → String
  | undefinedVariable name => "Undefined variable '" ++ name ++ "'."
  | negation => "Operand must be a number."
  | arithmetic _ _ => "Operands must be numbers."
  | addition _ _ => "Operands must be numbers or strings."
  | divisionByZero => "Division by zero"
  | arity expected got =>
    "Expected " ++ Number.natText expected ++ " arguments but got " ++ Number.natText got ++ "."
  | callDepth _ => "Maximum call depth exceeded"
  | notCallable _ => "Can only call functions."
  | propertyOfNull name => "Cannot read property '" ++ name ++ "' of null."
  | undefinedProperty name => "Undefined property '" ++ name ++ "'."
  | indexOfNull => "Cannot read property of null."
  | notIndexable kind => "Cannot index a value of type " ++ kind.name ++ "."
  | assignToNull => "Cannot set property of null."
  | assignProperty name kind =>
    "Cannot set property '" ++ name ++ "' on value of type " ++ kind.name ++ "."
  | assignIndex kind => "Cannot set an index on value of type " ++ kind.name ++ "."
  | outOfBounds index => "Array index out of bounds: " ++ index
  | invalidIndex index => "Invalid array index: " ++ index
  | indexKind kind => "Array index must be a number, got " ++ kind.name ++ "."
  | indexTooLarge index => "Array index too large: " ++ Number.natText index
  | argumentCount builtin count => builtin ++ "() requires " ++ count.words
  | argumentKind builtin kind => builtin ++ "() argument must be a number, got " ++ kind.name
  | argumentMissing builtin => builtin ++ "() is missing an argument"
  | lengthOf kind => "length() argument must be a string, got " ++ kind.name
  | negativeRoot => "Cannot calculate square root of negative number"
  | negativeRepeat => "repeat() count must be non-negative"
  | stringLength => "Invalid string length"
  | arrayLength length => "Invalid array length: " ++ Number.intText length
  | notAnArray builtin kind => builtin ++ "() expects an array, got " ++ kind.name
  | refused words => words

def help : RuntimeFault → Option String
  | undefinedVariable _ => some "Assign a value to the variable before reading it."
  | arithmetic left right => some ("Got " ++ left.name ++ " and " ++ right.name ++ ".")
  | addition left right => some ("Cannot add " ++ left.name ++ " and " ++ right.name ++ ".")
  | callDepth most =>
    some ("Calls may nest at most " ++ Number.natText most ++ " deep; check for unbounded recursion.")
  | notCallable kind => some ("A value of type " ++ kind.name ++ " is not callable.")
  | undefinedProperty _ => some "Only arrays and strings have a 'length' property."
  | assignProperty _ _ => some "Only array elements can be assigned, e.g. items[0] = value;"
  | lengthOf _ => some "Use arrayLength() or .length for arrays."
  | _ => none

end RuntimeFault

/-- The cause of a failure. -/
inductive Fault where
  | lexical (fault : LexicalFault)
  | grammar (fault : GrammarFault)
  | runtime (fault : RuntimeFault)
  | inputCancelled
  | halted
deriving DecidableEq

namespace Fault

/-- The heading under which a failure is reported. -/
def label : Fault → String
  | lexical _ => "Lexical Error"
  | grammar _ => "Syntax Error"
  | runtime _ => "Runtime Error"
  | inputCancelled => "Input Cancelled"
  | halted => "Stopped"

def message : Fault → String
  | lexical fault => fault.message
  | grammar fault => fault.message
  | runtime fault => fault.message
  | inputCancelled => "Input cancelled"
  | halted => "Execution stopped"

def help : Fault → Option String
  | lexical fault => fault.help
  | grammar fault => fault.help
  | runtime fault => fault.help
  | _ => none

end Fault

end StepScript
