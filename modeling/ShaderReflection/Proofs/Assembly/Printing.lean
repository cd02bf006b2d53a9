import ShaderReflection.Assembly.Listing

/-! Printed listings: one instruction on a line, with blanks, comments and line breaks of any kind
around it. -/
namespace ShaderReflection.Assembly

/-- Whether a text can stand behind `%`. -/
def isIdName (name : String) : Bool := !name.toList.isEmpty && name.toList.all isIdChar

def isOpcodeName (name : String) : Bool :=
  match name.toList with
  | 'O' :: 'p' :: c :: cs => (c :: cs).all isNameChar
  | _ => false

def isPlainWord (text : String) : Bool :=
  match text.toList with
  | c :: cs =>
    isNameChar c && cs.all isWordChar && (Lexeme.number.length? (c :: cs)).isNone
  | [] => false

def escape : List Char → List Char
  | [] => []
  | c :: cs => if c = '"' ∨ c = '\\' then '\\' :: c :: escape cs else c :: escape cs

namespace Operand

/-- Whether an operand is printed as it is read. Numbers with a fraction are not printed. -/
def isPrintable : Operand → Bool
  | .id name => isIdName name
  | .string _ => true
  | .int value => Number.isWritable value
  | .float _ => false
  | .word text => isPlainWord text

def printed : Operand → List Char
  | .id name => '%' :: name.toList
  | .string text => '"' :: (escape text.toList ++ ['"'])
  | .int value => (toString value).toList
  | .float _ => []
  | .word text => text.toList

end Operand

/-- An instruction that can be printed; its line follows from where it stands. -/
structure Statement where
  result : Option String
  opcode : String
  operands : List Operand
  idName : result.all isIdName = true
  opcodeName : isOpcodeName opcode = true
  printable : operands.all Operand.isPrintable = true

structure Blanks where
  text : List Char
  blank : text.all isBlank = true

structure Spacing extends Blanks where
  nonempty : text ≠ []

structure Comment where
  text : List Char
  oneLine : '\n' ∉ text

/-- What a line may hold besides an instruction. -/
structure Filler where
  blanks : Blanks
  comment : Option Comment

def Filler.text (f : Filler) : List Char :=
  f.blanks.text ++ f.comment.elim [] fun c => ';' :: c.text

inductive LineEnd where
  | lf
  | crlf

def LineEnd.text : LineEnd → List Char
  | .lf => ['\n']
  | .crlf => ['\r', '\n']

/-- How an instruction is set on its line. The blanks around the mark of a result are not used where
there is none; each operand has a gap before it. -/
structure Setting where
  indent : Blanks
  beforeEquals : Blanks
  afterEquals : Blanks
  gaps : Nat → Spacing
  trailing : Filler

def operandsText (gaps : Nat → Spacing) (place : Nat) : List Operand → List Char
  | [] => []
  | o :: os => (gaps place).text ++ (o.printed ++ operandsText gaps (place + 1) os)

namespace Statement

variable (s : Statement) (l : Setting)

def resultText : List Char :=
  s.result.elim [] fun name =>
    '%' :: (name.toList ++ (l.beforeEquals.text ++ '=' :: l.afterEquals.text))

/-- What stands before the opcode on the same line. -/
def headText : List Char := l.indent.text ++ s.resultText l

def bodyText : List Char := s.opcode.toList ++ operandsText l.gaps 0 s.operands

def instruction (line : Nat) : Instruction where
  opcode := s.opcode
  operands := s.operands
  result := s.result
  line := line

end Statement

inductive Line where
  | empty (filler : Filler)
  | statement (s : Statement) (l : Setting)

namespace Line

def text : Line → List Char
  | .empty f => f.text
  | .statement s l => s.headText l ++ (s.bodyText l ++ l.trailing.text)

/-- The instruction of a line behind a text. Its line is one more than the line breaks before the
opcode, those in strings counted. -/
def instructions (before : List Char) : Line → List Instruction
  | .empty _ => []
  | .statement s l => [s.instruction (lineBreaks (before ++ s.headText l) + 1)]

end Line

def linesText (lines : List (LineEnd × Line)) : List Char :=
  lines.flatMap fun (e, l) => e.text ++ l.text

def instructionsFrom (before : List Char) : List (LineEnd × Line) → List Instruction
  | [] => []
  | (e, l) :: rest =>
    l.instructions (before ++ e.text) ++ instructionsFrom (before ++ e.text ++ l.text) rest

/-- A printed listing: at least one line, which may be empty, and line breaks between lines. -/
structure Source where
  first : Line
  rest : List (LineEnd × Line)

namespace Source

def text (s : Source) : List Char := s.first.text ++ linesText s.rest

def instructions (s : Source) : List Instruction :=
  s.first.instructions [] ++ instructionsFrom s.first.text s.rest

end Source
end ShaderReflection.Assembly
