import ShaderReflection.Document

/-! Bindings of resources: where each is bound and what type it has. -/
namespace ShaderReflection

def BaseType.tag : BaseType → String
  | .void => "ShaderType::kVoid"
  | .boolean => "ShaderType::kBoolean"
  | .sbyte => "ShaderType::kSignedByte"
  | .ubyte => "ShaderType::kUnsignedByte"
  | .short => "ShaderType::kSignedShort"
  | .ushort => "ShaderType::kUnsignedShort"
  | .int => "ShaderType::kSignedInt"
  | .uint => "ShaderType::kUnsignedInt"
  | .int64 => "ShaderType::kSignedInt64"
  | .uint64 => "ShaderType::kUnsignedInt64"
  | .atomicCounter => "ShaderType::kAtomicCounter"
  | .half => "ShaderType::kHalfFloat"
  | .float => "ShaderType::kFloat"
  | .double => "ShaderType::kDouble"
  | .struct => "ShaderType::kStruct"
  | .image => "ShaderType::kImage"
  | .sampledImage => "ShaderType::kSampledImage"
  | .sampler => "ShaderType::kSampler"
  | .unknown => "ShaderType::kUnknown"

def TypeDescriptor.info (t : TypeDescriptor) : TypeInfo where
  typeName := t.baseType.tag
  bitWidth := t.width
  vecSize := t.vecsize
  columns := t.columns

namespace Shader

def binding? (s : Shader) (r : Resource) : Option ResourceBinding :=
  (s.type? r.typeId).map fun t =>
    { name := r.name
      descriptorSet := s.decoration r.id .descriptorSet
      binding := s.decoration r.id .binding
      location := s.decoration r.id .location
      index := s.decoration r.id .index
      slots := .ofList (s.slots r.id)
      type := t.info }

/-- The bindings of a list of resources, or the first resource without one. -/
def bindings (s : Shader) : List Resource → Except Resource (List ResourceBinding)
  | [] => .ok []
  | r :: rs =>
    match s.binding? r with
    | none => .error r
    | some b => (s.bindings rs).map (b :: ·)

end Shader
end ShaderReflection
