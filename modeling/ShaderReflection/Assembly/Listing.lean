import ShaderReflection.Assembly.Numeral
import ShaderReflection.Assembly.Token

/-! Reading an assembly listing, and the errors that refuse one. -/
namespace ShaderReflection.Assembly

/-- A place where a listing cannot continue. Line and column count from 1, the column in
characters. -/
structure SyntaxError where
  line : Nat
  column : Nat
  context : List Char
  deriving DecidableEq, Repr

namespace SyntaxError

/-- How many characters of context are shown on either side. -/
def span : Nat := 40

/-- The columns that a line takes: a tab reaches the next multiple of eight, counted from the
last carriage return. -/
def width (cs : List Char) : Nat :=
  (cs.foldl step (0, 0)).2
where
  /-- The column and the width after a character. -/
  step : Nat × Nat → Char → Nat × Nat
    | (column, total), c =>
      if c = '\t' then (column + (8 - column % 8), total + (8 - column % 8))
      else if c = '\r' then (0, total + 1)
      else (column + 1, total + 1)

/-- The characters of a text after its last line break. -/
def lastLine (cs : List Char) : List Char := (cs.reverse.takeWhile (· ≠ '\n')).reverse

/-- The text around an offset and a mark below it. -/
def contextAt (source : List Char) (offset : Nat) : List Char :=
  let before := lastLine ((source.take offset).drop (offset - span))
  let after := ((source.drop offset).take span).takeWhile (· ≠ '\n')
  before ++ after ++ '\n' :: (List.replicate (width before) ' ' ++ ['^', '\n'])

/-- The error at an offset of a text. -/
def ofOffset (source : List Char) (offset : Nat) : SyntaxError where
  line := lineBreaks (source.take offset) + 1
  column := (lastLine (source.take offset)).length + 1
  context := contextAt source offset

def message (e : SyntaxError) : String :=
  "line " ++ toString e.line ++ ", column " ++ toString e.column ++ ": unexpected input\n"
    ++ String.ofList e.context

end SyntaxError

inductive ListingError where
  | syntaxError (e : SyntaxError)
  | numeral (e : NumeralError)
  deriving DecidableEq, Repr

def ListingError.message : ListingError → String
  | .syntaxError e => e.message
  | .numeral e => e.message

/-- Characters behind a backslash stand for themselves. -/
def unescape : List Char → List Char
  | '\\' :: c :: cs => c :: unescape cs
  | c :: cs => c :: unescape cs
  | [] => []

def unquote (lexeme : List Char) : List Char := unescape (lexeme.drop 1).dropLast

def idName (lexeme : List Char) : String := String.ofList (lexeme.drop 1)

/-- The operand that a token denotes. -/
def Token.operand (t : Token) : Except NumeralError Operand :=
  match t.terminal with
  | .number => Numeral.read t.text
  | .string => .ok (.string (String.ofList (unquote t.text)))
  | .id => .ok (.id (idName t.text))
  | _ => .ok (.word (String.ofList t.text))

def splitLines : List Token → List (List Token)
  | [] => [[]]
  | t :: ts =>
    if t.terminal = .newline then [] :: splitLines ts
    else
      match splitLines ts with
      | l :: ls => (t :: l) :: ls
      | [] => [[t]]

def instruction (result : Option String) (opcode : Token) (operands : List Token) :
    Except NumeralError Instruction := do
  let operands ← operands.mapM Token.operand
  return { opcode := String.ofList opcode.text, operands, result, line := opcode.line }

/-- The instruction of one line, if the line has any. -/
def lineInstruction : List Token → Except NumeralError (Option Instruction)
  | [] => .ok none
  | t :: ts =>
    match t.terminal, ts with
    | .id, _ :: opcode :: operands => some <$> instruction (some (idName t.text)) opcode operands
    | _, operands => some <$> instruction none t operands

/-- The instructions of a complete list of tokens; the first number without a value refuses it. -/
def instructions (ts : List Token) : Except NumeralError (List Instruction) := do
  let lines ← (splitLines ts).mapM lineInstruction
  return lines.filterMap id

/-- Read a listing. A place where it cannot continue is found before any number is looked at. -/
def parse (source : String) : Except ListingError (List Instruction) :=
  let cs := source.toList
  match tokens cs with
  | (ts, .complete) => (instructions ts).mapError .numeral
  | (ts, .truncated) => .error (.syntaxError (.ofOffset cs (ts.getLast?.elim 0 (·.offset))))
  | (_, .stuck offset) => .error (.syntaxError (.ofOffset cs offset))

end ShaderReflection.Assembly
