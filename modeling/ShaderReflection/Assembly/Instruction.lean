import ShaderReflection.Number.Digits
import ShaderReflection.Number.Shortest
import ShaderReflection.Text.Quoted

/-! Instructions of an assembly listing and typed access to their operands. -/
namespace ShaderReflection.Assembly

/-- An operand: a reference `%name`, a string literal, a number, or a bare word such as an
enumerant. -/
inductive Operand where
  | id (name : String)
  | string (text : String)
  | int (value : Int)
  | float (value : Binary64)
  | word (text : String)
  deriving DecidableEq, Repr

/-- One instruction. `line` is the line of its opcode, counted from 1. -/
structure Instruction where
  opcode : String
  operands : List Operand
  result : Option String
  line : Nat
  deriving DecidableEq, Repr

inductive OperandKind where
  | id
  | integer
  | string
  deriving DecidableEq, Repr

inductive OperandError where
  | missing
  /-- The index does not fit into 64 bits with a sign. -/
  | indexTooLarge
  | unexpected (opcode : String) (index : Int) (wanted : OperandKind) (found : Operand)
  deriving DecidableEq, Repr

/-- How an operand is shown in a message. Integers of too many digits are not. -/
def Operand.shown : Operand → Option String
  | .id name => some ("IdRef(name=" ++ Text.quoted name ++ ")")
  | .string text => some ("StringLit(value=" ++ Text.quoted text ++ ")")
  | .int n => Number.decimal? n
  | .float x => some x.text
  | .word text => some (Text.quoted text)

def OperandKind.phrase : OperandKind → String
  | .id => "an id"
  | .integer => "an integer"
  | .string => "a string"

def OperandError.message : OperandError → String
  | .missing => "list index out of range"
  | .indexTooLarge => "cannot fit 'int' into an index-sized integer"
  | .unexpected opcode index wanted found =>
    match found.shown with
    | some operand =>
      opcode ++ ": operand " ++ toString index ++ " is not " ++ wanted.phrase ++ ": " ++ operand
    | none => Number.unwritableText

/-- The element of a list at an index; a negative index counts from the end. -/
def elementAt (xs : List α) (index : Int) : Except OperandError α :=
  if index < -0x8000000000000000 ∨ 0x7FFFFFFFFFFFFFFF < index then .error .indexTooLarge
  else
    let place := if 0 ≤ index then index else xs.length + index
    if place < 0 then .error .missing
    else
      match xs[place.toNat]? with
      | some x => .ok x
      | none => .error .missing

namespace Instruction

/-- Read an operand with a partial view of operands. -/
def readAt (i : Instruction) (index : Int) (wanted : OperandKind) (view : Operand → Option α) :
    Except OperandError α := do
  let o ← elementAt i.operands index
  match view o with
  | some a => return a
  | none => throw (.unexpected i.opcode index wanted o)

def idAt (i : Instruction) (index : Int) : Except OperandError String :=
  i.readAt index .id fun
    | .id name => some name
    | _ => none

def intAt (i : Instruction) (index : Int) : Except OperandError Int :=
  i.readAt index .integer fun
    | .int n => some n
    | _ => none

/-- The text at an index, of a string literal or of a word. -/
def textAt (i : Instruction) (index : Int) : Except OperandError String :=
  i.readAt index .string fun
    | .string text => some text
    | .word text => some text
    | _ => none

end Instruction
end ShaderReflection.Assembly
