import ShaderReflection.Number.Digits
import ShaderReflection.Types

/-! The types that the host has for members of a struct, and the choice among them. -/
namespace ShaderReflection

inductive HostType where
  | matrix
  | point
  | vector3
  | vector4
  | boolean
  | scalar
  | uint32
  | int32
  /-- Bytes without a meaning to the host. -/
  | padding (bytes : Int)
  deriving DecidableEq, Repr

namespace HostType

/-- The name of a type in the host's language. Padding whose size cannot be written has none. -/
def text : HostType → Option String
  | .matrix => some "Matrix"
  | .point => some "Point"
  | .vector3 => some "Vector3"
  | .vector4 => some "Vector4"
  | .boolean => some "bool"
  | .scalar => some "Scalar"
  | .uint32 => some "uint32_t"
  | .int32 => some "int32_t"
  | .padding bytes => (Number.decimal? bytes).map fun size => "Padding<" ++ size ++ ">"

def byteSize : HostType → Int
  | .matrix => 64
  | .point => 8
  | .vector3 => 12
  | .vector4 => 16
  | .boolean => 1
  | .scalar | .uint32 | .int32 => 4
  | .padding bytes => bytes

/-- The host's type for single values of a base type. -/
def ofBaseType? : BaseType → Option HostType
  | .boolean => some .boolean
  | .float => some .scalar
  | .uint => some .uint32
  | .int => some .int32
  | _ => none

end HostType

namespace TypeDescriptor

def isFloat32Vector (t : TypeDescriptor) (size : Int) : Bool :=
  t.baseType = .float && t.width = 32 && t.columns = 1 && t.vecsize = size

/-- Whether a type is a square matrix of 32-bit floats with four columns. -/
def isFloat32Matrix (t : TypeDescriptor) : Bool :=
  t.baseType = .float && t.width = 32 && t.columns = 4 && t.vecsize = 4 && t.array.isEmpty

end TypeDescriptor

inductive MemberClass where
  /-- A vector or matrix with a type of its own. -/
  | composite (type : HostType)
  /-- A single value, and the bytes by which its declared width exceeds the host's. -/
  | single (type : HostType) (padding : Int)
  /-- Anything else, carried as bytes. -/
  | bytes (count : Int)
  deriving DecidableEq, Repr

/-- Part of a struct on the host: its type, and what its name has behind the member's. -/
structure Block where
  type : HostType
  suffix : String
  byteLength : Int
  deriving DecidableEq, Repr

namespace MemberClass

/-- Choose how the host holds a type; the first choice that fits wins. -/
def ofType (t : TypeDescriptor) : MemberClass :=
  if t.isFloat32Matrix then .composite .matrix
  else if t.isFloat32Vector 2 then .composite .point
  else if t.isFloat32Vector 3 then .composite .vector3
  else if t.isFloat32Vector 4 then .composite .vector4
  else
    match HostType.ofBaseType? t.baseType with
    | some h =>
      if t.columns = 1 ∧ t.vecsize = 1 then .single h (max (t.width.fdiv 8 - h.byteSize) 0)
      else .bytes t.naturalSize
    | none => .bytes t.naturalSize

/-- The parts of a struct that a member takes, in order. -/
def blocks : MemberClass → List Block
  | .composite h => [⟨h, "", h.byteSize⟩]
  | .single h padding =>
    ⟨h, "", h.byteSize⟩ :: if padding = 0 then [] else [⟨.padding padding, "_pad", padding⟩]
  | .bytes count => [⟨.padding count, "", count⟩]

end MemberClass
end ShaderReflection
