import ShaderReflection.Layout.StructLayout

/-! The struct that holds one vertex: the stage inputs of a vertex shader in order of location. -/
namespace ShaderReflection

inductive VertexSkip where
  | noInputs
  | duplicateLocation (location : Int)
  /-- The locations, in ascending order, are not the first natural numbers. -/
  | notContiguous (locations : List Int)
  | unresolved
  deriving DecidableEq, Repr

def vertexStructName : String := "PerVertexData"

/-- The host's type for a stage input. -/
def vertexType (t : TypeDescriptor) : HostType :=
  if t.isFloat32Vector 2 then .point
  else if t.isFloat32Vector 4 then .vector4
  else if t.isFloat32Vector 3 then .vector3
  else .padding t.naturalSize

/-- The first element of a list that occurs before. -/
def firstRepeated [DecidableEq α] (seen : List α) : List α → Option α
  | [] => none
  | x :: xs => if x ∈ seen then some x else firstRepeated (x :: seen) xs

namespace Shader

def location (s : Shader) (r : Resource) : Int := s.decoration r.id .location

/-- The stage input at a location, with its type. -/
def inputAt? (s : Shader) (inputs : List Resource) (location : Nat) :
    Option (Resource × TypeDescriptor) := do
  let r ← inputs.find? (s.location · = location)
  let t ← s.type? r.typeId
  return (r, t)

/-- The field of the vertex struct at a location. -/
def vertexBlock (s : Shader) (inputs : List Resource) (location : Nat) :
    Except (Absence VertexSkip) NamedBlock :=
  match s.inputAt? inputs location with
  | none => .error (.skipped .unresolved)
  | some (r, t) =>
    match (vertexType t).text with
    | none => .error .unwritable
    | some type => .ok { name := r.name, type, byteLength := t.naturalSize }

/-- The vertex struct. The locations of `n` inputs must be the numbers below `n`, in any order. -/
def vertexStruct (s : Shader) (inputs : List Resource) :
    Except (Absence VertexSkip) StructDefinition :=
  let locations := inputs.map s.location
  if inputs.isEmpty then .error (.skipped .noInputs)
  else
    match firstRepeated [] locations with
    | some l => .error (.skipped (.duplicateLocation l))
    | none =>
      let sorted := locations.mergeSort
      if sorted ≠ (List.range inputs.length).map Int.ofNat then
        .error (.skipped (.notContiguous sorted))
      else do
        let blocks ← (List.range inputs.length).mapM (s.vertexBlock inputs)
        return {
          name := vertexStructName
          byteLength := total (blocks.map (·.byteLength))
          members := place 0 blocks }

end Shader
end ShaderReflection
