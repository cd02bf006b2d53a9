import ShaderReflection.Shader

/-! The reflection document: everything the host learns about one shader. -/
namespace ShaderReflection

/-- The type of a resource as the host is told of it. -/
structure TypeInfo where
  typeName : String
  bitWidth : Int
  vecSize : Int
  columns : Int
  deriving DecidableEq, Repr

/-- A resource with the places it is bound to. -/
structure ResourceBinding where
  name : String
  descriptorSet : Int
  binding : Int
  location : Int
  index : Int
  slots : Slots
  type : TypeInfo
  deriving DecidableEq, Repr

structure StructMember where
  name : String
  type : String
  offset : Int
  byteLength : Int
  deriving DecidableEq, Repr

structure StructDefinition where
  name : String
  byteLength : Int
  members : List StructMember
  deriving DecidableEq, Repr

structure Document where
  entryPoint : String
  shaderName : String
  stage : String
  headerFileName : String
  uniformBuffers : List ResourceBinding
  stageInputs : List ResourceBinding
  sampledImages : List ResourceBinding
  stageOutputs : List ResourceBinding
  structs : List StructDefinition
  deriving DecidableEq, Repr

/-- The first struct of a name. -/
def Document.struct? (d : Document) (name : String) : Option StructDefinition :=
  d.structs.find? (·.name = name)

end ShaderReflection
