import ShaderReflection.Module.Declarations

/-! The resources of a module: variables sorted by storage class and type. -/
namespace ShaderReflection.Module

/-- The use of an image without a sampler, for storage. -/
def storageImage : Int := 2

namespace Declarations

/-- The type that a variable points to; a type that is not a pointer stands for itself. -/
def baseTypeId (d : Declarations) (v : Variable) : Id := (d.pointees.get? v.typeId).getD v.typeId

/-- Whether a variable, or a member of the struct it points to, is a built-in. -/
def isBuiltIn (d : Declarations) (v : Variable) : Bool :=
  d.isDecorated v.id "BuiltIn" || d.hasMemberDecorated (d.baseTypeId v) "BuiltIn"

/-- The category of a variable in the uniform-constant storage class with the given type. -/
def constantCategory? (d : Declarations) (typeId : Id) (t : TypeDescriptor) : Option Category :=
  match t.baseType with
  | .sampledImage => some .sampledImages
  | .image =>
    if (d.imageSampled.get? typeId).getD 1 = storageImage then none else some .separateImages
  | .sampler => some .separateSamplers
  | _ => none

/-- The category of a variable, if it is a resource. -/
def category? (d : Declarations) (v : Variable) : Option Category :=
  match v.storage with
  | .uniform =>
    match d.types.get? (d.baseTypeId v) with
    | some t =>
      if t.isStruct && d.isDecorated (d.baseTypeId v) "Block" then some .uniformBuffers else none
    | none => none
  | .input => if d.isBuiltIn v then none else some .stageInputs
  | .output => if d.isBuiltIn v then none else some .stageOutputs
  | .uniformConstant => (d.types.get? (d.baseTypeId v)).bind (d.constantCategory? (d.baseTypeId v))
  | .other => none

/-- A uniform buffer is named for its block, or else for its variable, or else for its id. -/
def bufferName (d : Declarations) (v : Variable) : String :=
  if d.name (d.baseTypeId v) ≠ "" then d.name (d.baseTypeId v)
  else if d.name v.id ≠ "" then d.name v.id
  else "_" ++ toString v.id

def resource (d : Declarations) (c : Category) (v : Variable) : Resource where
  id := v.id
  typeId := v.typeId
  baseTypeId := d.baseTypeId v
  name := if c = .uniformBuffers then d.bufferName v else d.name v.id

def resources (d : Declarations) (c : Category) : List Resource :=
  (d.globals.filter (d.category? · = some c)).map (d.resource c)

theorem mem_resources {d : Declarations} {c : Category} {r : Resource} :
    r ∈ d.resources c ↔ ∃ v ∈ d.globals, d.category? v = some c ∧ d.resource c v = r := by
  simp [resources, and_assoc]

end Declarations
end ShaderReflection.Module
