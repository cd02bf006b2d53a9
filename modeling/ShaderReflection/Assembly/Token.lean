import ShaderReflection.Assembly.Pattern

/-! Tokens of an assembly listing. Only the terminals that the grammar allows next compete for
the text, numbers before the rest; blanks and comments are dropped. -/
namespace ShaderReflection.Assembly

inductive Terminal where
  | newline
  | id
  | equals
  | opcode
  | string
  | number
  | word
  deriving DecidableEq, Repr

def isBlank (c : Char) : Bool := c = ' ' || c = '\t'

/-- Letters, digits and the underscore, of the ASCII range alone. -/
def isNameChar (c : Char) : Bool := c.isAlphanum || c = '_'

def isIdChar (c : Char) : Bool := isNameChar c || c = '.'

def isWordChar (c : Char) : Bool := isNameChar c || c = '|'

def isHexDigit (c : Char) : Bool :=
  c.isDigit || ('a' ≤ c && c ≤ 'f') || ('A' ≤ c && c ≤ 'F')

def isSign (c : Char) : Bool := c = '+' || c = '-'

namespace Lexeme

/-- After a line break, the number of further characters of the same newline token: blank lines
and lines that hold nothing but a comment. -/
def newlineRun (inComment : Bool) : List Char → Nat
  | [] => 0
  | '\n' :: cs => newlineRun false cs + 1
  | '\r' :: '\n' :: cs => newlineRun false cs + 2
  | c :: cs =>
    if inComment then newlineRun true cs + 1
    else if isBlank c then newlineRun false cs + 1
    else if c = ';' then newlineRun true cs + 1
    else 0

/-- A line break with the blank and comment lines below it. -/
def newline : List Char → Option Nat
  | '\n' :: cs => some (newlineRun false cs + 1)
  | '\r' :: '\n' :: cs => some (newlineRun false cs + 2)
  | _ => none

/-- `%name`. -/
def id : List Char → Option Nat
  | '%' :: cs =>
    match (cs.takeWhile isIdChar).length with
    | 0 => none
    | n + 1 => some (n + 2)
  | _ => none

/-- The mark between a result id and its instruction. -/
def equals : List Char → Option Nat
  | '=' :: _ => some 1
  | _ => none

/-- `OpName`. -/
def opcode : List Char → Option Nat
  | 'O' :: 'p' :: cs =>
    match (cs.takeWhile isNameChar).length with
    | 0 => none
    | n + 1 => some (n + 3)
  | _ => none

/-- After an opening quote, the number of characters up to and with the closing one. A backslash
covers the next character unless that ends the line. -/
def stringTail : List Char → Option Nat
  | [] => none
  | '"' :: _ => some 1
  | '\\' :: '\n' :: _ => none
  | '\\' :: _ :: cs => (stringTail cs).map (· + 2)
  | '\\' :: [] => none
  | _ :: cs => (stringTail cs).map (· + 1)

def string : List Char → Option Nat
  | '"' :: cs => (stringTail cs).map (· + 1)
  | _ => none

/-- A word starts with a letter, a digit or an underscore. -/
def word : List Char → Option Nat
  | c :: cs => if isNameChar c then some ((cs.takeWhile isWordChar).length + 1) else none
  | [] => none

open Pattern

def hexMark : Pattern := seq (one (· = '0')) (one fun c => c = 'x' || c = 'X')

def exponentDigits : Pattern := seq (opt (one isSign)) (many1 Char.isDigit)

/-- `0x1.8p3`. -/
def hexFloat : Pattern :=
  seq hexMark (seq (many1 isHexDigit)
    (seq (opt (seq (one (· = '.')) (many isHexDigit)))
      (seq (one fun c => c = 'p' || c = 'P') exponentDigits)))

/-- `0x18`. -/
def hexInteger : Pattern := seq hexMark (many1 isHexDigit)

/-- `18`, `1.8` and `1.8e3`. -/
def decimal : Pattern :=
  seq (many1 Char.isDigit)
    (seq (opt (seq (one (· = '.')) (many1 Char.isDigit)))
      (opt (seq (one fun c => c = 'e' || c = 'E') exponentDigits)))

/-- A number gives characters back rather than be followed by a letter or an underscore. -/
def mayFollowNumber : List Char → Bool
  | c :: _ => !(c.isAlpha || c = '_')
  | [] => true

def number : Pattern :=
  before (seq (opt (one isSign)) (alt hexFloat (alt hexInteger decimal))) mayFollowNumber

theorem hexMark_consumes : hexMark.Consumes := (one_consumes _).seq (one_advances _)

theorem hexMark_advances : hexMark.Advances := (one_advances _).seq (one_advances _)

theorem exponentDigits_advances : exponentDigits.Advances :=
  (one_advances _).opt.seq (many1_advances _)

theorem hexFloat_advances : hexFloat.Advances :=
  hexMark_advances.seq <| (many1_advances _).seq <|
    ((one_advances _).seq (many_advances _)).opt.seq <|
      (one_advances _).seq exponentDigits_advances

theorem hexInteger_advances : hexInteger.Advances := hexMark_advances.seq (many1_advances _)

theorem decimal_advances : decimal.Advances :=
  (many1_advances _).seq <| ((one_advances _).seq (many1_advances _)).opt.seq <|
    ((one_advances _).seq exponentDigits_advances).opt

theorem number_advances : number.Advances :=
  ((one_advances _).opt.seq
    (hexFloat_advances.alt (hexInteger_advances.alt decimal_advances))).before _

theorem number_consumes : number.Consumes := by
  refine Consumes.before (.seq_right (one_advances _).opt (.alt ?_ (.alt ?_ ?_))) _
  · exact hexMark_consumes.seq <| (many1_advances _).seq <|
      ((one_advances _).seq (many_advances _)).opt.seq <|
        (one_advances _).seq exponentDigits_advances
  · exact hexMark_consumes.seq (many1_advances _)
  · exact (many1_consumes _).seq <| ((one_advances _).seq (many1_advances _)).opt.seq <|
      ((one_advances _).seq exponentDigits_advances).opt

end Lexeme

namespace Terminal

/-- The length of the lexeme of a terminal at the start of a text. -/
def length? : Terminal → List Char → Option Nat
  | .newline => Lexeme.newline
  | .id => Lexeme.id
  | .equals => Lexeme.equals
  | .opcode => Lexeme.opcode
  | .string => Lexeme.string
  | .number => Lexeme.number.length?
  | .word => Lexeme.word

/-- The order in which terminals are tried. -/
def byPriority : List Terminal := [.number, .newline, .id, .equals, .opcode, .string, .word]

theorem mem_byPriority (t : Terminal) : t ∈ byPriority := by cases t <;> decide

theorem length?_pos {t : Terminal} {cs : List Char} {n : Nat} (h : t.length? cs = some n) :
    0 < n := by
  cases t with
  | number => exact (Pattern.length?_bounds Lexeme.number_advances Lexeme.number_consumes h).1
  | newline => simp only [length?, Lexeme.newline] at h; split at h <;> simp at h <;> omega
  | id =>
    simp only [length?, Lexeme.id] at h
    split at h
    · split at h <;> simp at h; omega
    · simp at h
  | equals => simp only [length?, Lexeme.equals] at h; split at h <;> simp at h; omega
  | opcode =>
    simp only [length?, Lexeme.opcode] at h
    split at h
    · split at h <;> simp at h; omega
    · simp at h
  | string =>
    simp only [length?, Lexeme.string] at h
    split at h
    · simp at h; omega
    · simp at h
  | word =>
    simp only [length?, Lexeme.word] at h
    split at h
    · split at h <;> simp at h; omega
    · simp at h

end Terminal

inductive Phase where
  | start
  | lineStart
  | afterResult
  | afterEquals
  | operands
  deriving DecidableEq, Repr

namespace Phase

/-- The phase after a terminal, if the grammar allows that terminal. -/
def next? : Phase → Terminal → Option Phase
  | .start, .newline => some .lineStart
  | .start, .id | .lineStart, .id => some .afterResult
  | .start, .opcode | .lineStart, .opcode | .afterEquals, .opcode => some .operands
  | .afterResult, .equals => some .afterEquals
  | .operands, .newline => some .lineStart
  | .operands, .id | .operands, .string | .operands, .number | .operands, .word => some .operands
  | _, _ => none

/-- Whether a listing may end in a phase. -/
def isFinal : Phase → Bool
  | .start | .lineStart | .operands => true
  | .afterResult | .afterEquals => false

/-- The first terminal in order of priority that is allowed and matches, with its lexeme's length
and the phase after it. -/
def scan (p : Phase) (cs : List Char) : Option (Terminal × Phase × Nat) :=
  Terminal.byPriority.findSome? fun t => do
    let q ← p.next? t
    let n ← t.length? cs
    return (t, q, n)

theorem scan_eq_some {p q : Phase} {cs : List Char} {t : Terminal} {n : Nat}
    (h : p.scan cs = some (t, q, n)) : p.next? t = some q ∧ t.length? cs = some n := by
  obtain ⟨u, _, hu⟩ := List.exists_of_findSome?_eq_some h
  cases hq : p.next? u with
  | none => simp [hq] at hu
  | some q' =>
    cases hn : u.length? cs with
    | none => simp [hq, hn] at hu
    | some n' =>
      simp [hq, hn] at hu
      obtain ⟨rfl, rfl, rfl⟩ := hu
      exact ⟨hq, hn⟩

end Phase

/-- The number of blanks and comment characters at the start of a text. -/
def gap (inComment : Bool) : List Char → Nat
  | [] => 0
  | c :: cs =>
    if c = '\n' then 0
    else if inComment then gap true cs + 1
    else if isBlank c then gap false cs + 1
    else if c = ';' then gap true cs + 1
    else 0

/-- A lexeme with its terminal, its distance from the start of the text and its line, counted
from 1. -/
structure Token where
  terminal : Terminal
  text : List Char
  offset : Nat
  line : Nat
  deriving DecidableEq, Repr

/-- How the reading of tokens ended. -/
inductive Ending where
  /-- The text ended where a listing may end. -/
  | complete
  /-- The text ended in the middle of an instruction. -/
  | truncated
  /-- No terminal that is allowed matches at an offset. -/
  | stuck (offset : Nat)
  deriving DecidableEq, Repr

def lineBreaks (cs : List Char) : Nat := cs.count '\n'

/-- Read tokens as far as the grammar goes. -/
def tokensFrom (p : Phase) (offset line : Nat) (cs : List Char) : List Token × Ending :=
  let cs' := cs.drop (gap false cs)
  let start := offset + gap false cs
  if cs' = [] then ([], if p.isFinal then .complete else .truncated)
  else
    match _h : p.scan cs' with
    | none => ([], .stuck start)
    | some (t, q, n) =>
      let text := cs'.take n
      let (ts, ending) := tokensFrom q (start + n) (line + lineBreaks text) (cs'.drop n)
      (⟨t, text, start, line⟩ :: ts, ending)
termination_by cs.length
decreasing_by
  have hn := Terminal.length?_pos (Phase.scan_eq_some _h).2
  rename_i hne
  have h1 : 0 < cs'.length := List.length_pos_iff.2 hne
  have h2 : cs'.length ≤ cs.length := by simp [cs']
  simp only [List.length_drop]
  omega

def tokens (cs : List Char) : List Token × Ending := tokensFrom .start 0 1 cs

end ShaderReflection.Assembly
