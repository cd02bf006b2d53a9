/-! The instructions that declare something at module scope. -/
namespace ShaderReflection.Module

inductive TypeOpcode where
  | void
  | bool
  | int
  | float
  | vector
  | matrix
  | image
  | sampler
  | sampledImage
  | array
  | runtimeArray
  | struct
  | pointer
  | function
  | unknown
  deriving DecidableEq, Repr

inductive Opcode where
  | entryPoint
  | name
  | memberName
  | decorate
  | memberDecorate
  | constant
  | variable
  | type (kind : TypeOpcode)
  /-- An instruction without a part in reflection. -/
  | silent
  deriving DecidableEq, Repr

/-- The type declarations that are resolved, by name. -/
def TypeOpcode.named : List (String × TypeOpcode) := [
  ("OpTypeVoid", .void), ("OpTypeBool", .bool), ("OpTypeInt", .int), ("OpTypeFloat", .float),
  ("OpTypeVector", .vector), ("OpTypeMatrix", .matrix), ("OpTypeImage", .image),
  ("OpTypeSampler", .sampler), ("OpTypeSampledImage", .sampledImage), ("OpTypeArray", .array),
  ("OpTypeRuntimeArray", .runtimeArray), ("OpTypeStruct", .struct), ("OpTypePointer", .pointer),
  ("OpTypeFunction", .function)]

/-- The other declarations, by name. A forward declaration of a pointer declares nothing. -/
def Opcode.named : List (String × Opcode) := [
  ("OpEntryPoint", .entryPoint), ("OpName", .name), ("OpMemberName", .memberName),
  ("OpDecorate", .decorate), ("OpMemberDecorate", .memberDecorate), ("OpConstant", .constant),
  ("OpVariable", .variable), ("OpTypeForwardPointer", .silent)]

def Opcode.ofName (name : String) : Opcode :=
  match Opcode.named.lookup name with
  | some o => o
  | none =>
    match TypeOpcode.named.lookup name with
    | some k => .type k
    | none => if "OpType".isPrefixOf name then .type .unknown else .silent

end ShaderReflection.Module
