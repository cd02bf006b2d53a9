import ShaderReflection.Types

/-! What reflection asks of a shader. -/
namespace ShaderReflection

structure EntryPoint where
  name : String
  model : ExecutionModel
  deriving DecidableEq, Repr

/-- A variable that the host sees: its id, its declared type, and the type it holds or points to. -/
structure Resource where
  id : Id
  typeId : Id
  baseTypeId : Id
  name : String
  deriving DecidableEq, Repr

inductive Category where
  | uniformBuffers
  | stageInputs
  | stageOutputs
  | sampledImages
  | separateImages
  | separateSamplers
  deriving DecidableEq, Repr

/-- Stands for a slot that was not assigned. -/
def unassigned : Int := 0xFFFFFFFF

/-- The slots that a platform gives to a resource. -/
structure Slots where
  first : Int := unassigned
  second : Int := unassigned
  third : Int := unassigned
  fourth : Int := unassigned
  deriving DecidableEq, Repr

namespace Slots

/-- The first four of a list of slots; missing ones are unassigned. -/
def ofList (xs : List Int) : Slots where
  first := xs[0]?.getD unassigned
  second := xs[1]?.getD unassigned
  third := xs[2]?.getD unassigned
  fourth := xs[3]?.getD unassigned

def toList (s : Slots) : List Int := [s.first, s.second, s.third, s.fourth]

end Slots

/-- The questions that reflection asks of a shader. -/
structure Shader where
  entryPoints : List EntryPoint
  resources : Category → List Resource
  /-- The descriptor of a type, if it is known. -/
  type? : Id → Option TypeDescriptor
  /-- The declared name of an id, empty if there is none. -/
  name : Id → String
  /-- The value of a decoration, zero if there is none. -/
  decoration : Id → Decoration → Int
  /-- The slots of a resource; four of them count. -/
  slots : Id → List Int
  /-- The declared name of a struct's member. -/
  memberName? : Id → Int → Option String
  /-- The identities of all struct types in the order of their declaration; an array of a struct
  and a pointer to a struct repeat its identity. -/
  structIds : List Id

end ShaderReflection
