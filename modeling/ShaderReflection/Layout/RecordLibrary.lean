import ShaderReflection.Layout.HostType
import ShaderReflection.Text.Quoted

/-! Libraries of arrays, which make the formats in which the fields of a record are read from its
bytes. -/
namespace ShaderReflection

namespace HostType

/-- The format of one element: byte order, kind and size. -/
def element : HostType → String
  | .matrix | .point | .vector3 | .vector4 | .scalar => "<f4"
  | .boolean => "|b1"
  | .uint32 => "<u4"
  | .int32 => "<i4"
  | .padding bytes => "|V" ++ toString bytes

/-- The lengths of the axes. -/
def shape : HostType → List Int
  | .matrix => [4, 4]
  | .point => [2]
  | .vector3 => [3]
  | .vector4 => [4]
  | _ => []

end HostType

structure RecordField where
  name : String
  offset : Int
  type : HostType
  deriving DecidableEq, Repr

def RecordField.stop (f : RecordField) : Int := f.offset + f.type.byteSize

structure RecordFormat where
  itemSize : Int
  fields : List RecordField
  deriving DecidableEq, Repr

inductive RecordError where
  | unknownType (name : String)
  /-- The size of a padding is no 32-bit number in ASCII digits. -/
  | paddingSize (digits : List Char)
  | beyond64Bits
  | beyond32Bits
  | negativeOffset (offset : Int)
  | repeatedName
  | tooSmall (needed given : Int)
  deriving DecidableEq, Repr

def RecordError.message : RecordError → String
  | .unknownType name => "No host representation for type '" ++ name ++ "'"
  | .paddingSize digits =>
    "data type " ++ Text.quoted (String.ofList ('V' :: digits)) ++ " not understood"
  | .beyond64Bits => "Python int too large to convert to C long"
  | .beyond32Bits => "integer won't fit into a C int"
  | .negativeOffset offset => "offset " ++ toString offset ++ " cannot be negative"
  | .repeatedName => "name already used as a name or title"
  | .tooSmall needed given =>
    "NumPy dtype descriptor requires " ++ toString needed
      ++ " bytes, cannot override to smaller itemsize of " ++ toString given

/-- What a library of arrays is asked for. -/
structure RecordLibrary where
  /-- The size of a type of bytes without a meaning, from digits of any script. -/
  bytes : (digits : List Char) → Except RecordError Int
  /-- The format of a record with some fields and a size. -/
  record : List RecordField → (size : Int) → Except RecordError RecordFormat

namespace RecordLibrary

/-- Whether 32 bits with a sign can hold a number. -/
def fits32 (n : Int) : Bool := -0x80000000 ≤ n ∧ n ≤ 0x7FFFFFFF

def fits64 (n : Int) : Bool := -0x8000000000000000 ≤ n ∧ n ≤ 0x7FFFFFFFFFFFFFFF

def checkWidth (n : Int) : Except RecordError Unit :=
  if !fits64 n then .error .beyond64Bits
  else if !fits32 n then .error .beyond32Bits
  else .ok ()

/-- Check one field against the names before it. -/
def checkField (names : List String) (f : RecordField) : Except RecordError Unit := do
  checkWidth f.offset
  if f.offset < 0 then throw (.negativeOffset f.offset)
  if f.name ∈ names then throw .repeatedName

/-- Check fields in order. -/
def checkFields (names : List String) : List RecordField → Except RecordError Unit
  | [] => .ok ()
  | f :: fs => do
    checkField names f
    checkFields (f.name :: names) fs

/-- The size after one more field. It is kept in 32 bits with a sign, into which an end beyond them
is folded. -/
def extend (size stop : Int) : Int := if size < stop then Int.bmod stop 0x100000000 else size

/-- The size that fields need, by their ends. -/
def neededSize (stops : List Int) : Int := stops.foldl extend 0

/-- The size that digits in ASCII give to a type of bytes. -/
def sizeOf (digits : List Char) : Except RecordError Int :=
  let size := Nat.ofDigitChars 10 digits 0
  if digits.all Char.isDigit ∧ size ≤ 0x7FFFFFFF then .ok size else .error (.paddingSize digits)

/-- Make a record of fields that have distinct names and places inside it. -/
def recordOf (fields : List RecordField) (size : Int) : Except RecordError RecordFormat := do
  checkFields [] fields
  checkWidth size
  let needed := neededSize (fields.map (·.stop))
  if size < needed then .error (.tooSmall needed size) else .ok { itemSize := size, fields }

/-- The library that comes with the command. -/
def standard : RecordLibrary where
  bytes := sizeOf
  record := recordOf

end RecordLibrary
end ShaderReflection
