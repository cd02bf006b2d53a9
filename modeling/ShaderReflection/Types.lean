/-! The types of a shader, resolved to the form in which layouts are computed. -/
namespace ShaderReflection

/-- The number by which an id of a shader is known. -/
abbrev Id := Int

/-- The kind of value that a type is built from. -/
inductive BaseType where
  | void
  | boolean
  | sbyte
  | ubyte
  | short
  | ushort
  | int
  | uint
  | int64
  | uint64
  | atomicCounter
  | half
  | float
  | double
  | struct
  | image
  | sampledImage
  | sampler
  | unknown
  deriving DecidableEq, Repr

def BaseType.ofInt (width : Int) (signed : Bool) : BaseType :=
  if width = 8 then (if signed then .sbyte else .ubyte)
  else if width = 16 then (if signed then .short else .ushort)
  else if width = 32 then (if signed then .int else .uint)
  else if width = 64 then (if signed then .int64 else .uint64)
  else .unknown

def BaseType.ofFloat (width : Int) : BaseType :=
  if width = 16 then .half
  else if width = 32 then .float
  else if width = 64 then .double
  else .unknown

/-- The decorations of a resource that reflection reports. -/
inductive Decoration where
  | descriptorSet
  | binding
  | location
  | index
  deriving DecidableEq, Repr

def Decoration.name : Decoration → String
  | .descriptorSet => "DescriptorSet"
  | .binding => "Binding"
  | .location => "Location"
  | .index => "Index"

/-- The execution models that reflection tells apart. -/
inductive ExecutionModel where
  | vertex
  | fragment
  | glCompute
  | unknown
  deriving DecidableEq, Repr

def ExecutionModel.ofName (name : String) : ExecutionModel :=
  if name = "Vertex" then .vertex
  else if name = "Fragment" then .fragment
  else if name = "GLCompute" then .glCompute
  else .unknown

/-- A resolved type. `selfId` is the identity of the declared type below: an array of a type and a
pointer to a type keep it. `aliasOf` is an earlier struct that is equivalent and lends its member
names. -/
structure TypeDescriptor where
  baseType : BaseType
  width : Int := 0
  vecsize : Int := 1
  columns : Int := 1
  selfId : Id := 0
  array : List Int := []
  pointer : Bool := false
  members : List Id := []
  aliasOf : Option Id := none
  deriving DecidableEq, Repr

namespace TypeDescriptor

/-- Whether the type is a struct, or an array of structs, or a pointer to one. -/
def isStruct (t : TypeDescriptor) : Bool := t.baseType = .struct

/-- The bytes of one element, without any layout rules: whole bytes, rounded down. -/
def naturalSize (t : TypeDescriptor) : Int := (t.width * t.vecsize * t.columns).fdiv 8

end TypeDescriptor
end ShaderReflection
