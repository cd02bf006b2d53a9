import ShaderReflection.Assembly.Instruction
import ShaderReflection.Shader
import ShaderReflection.Table

/-! What the declarations of a module establish: one table for each kind of fact about an id. -/
namespace ShaderReflection.Module

open Assembly (Operand)

inductive StorageClass where
  | uniform
  | input
  | output
  | uniformConstant
  | other
  deriving DecidableEq, Repr

def StorageClass.ofName (name : String) : StorageClass :=
  if name = "Uniform" then .uniform
  else if name = "Input" then .input
  else if name = "Output" then .output
  else if name = "UniformConstant" then .uniformConstant
  else .other

/-- A variable with the pointer type it was declared with. -/
structure Variable where
  id : Id
  typeId : Id
  storage : StorageClass
  deriving DecidableEq, Repr

/-- The facts that the declarations of a module establish. -/
structure Declarations where
  /-- The names of the ids; the id of a name is its place, counted from 1. -/
  ids : List String
  names : Table Id String
  memberNames : Table (Id × Int) String
  decorations : Table (Id × String) (List Operand)
  memberDecorations : Table (Id × Int × String) (List Operand)
  types : Table Id TypeDescriptor
  /-- The types that pointer types point to. -/
  pointees : Table Id Id
  /-- How image types are used with samplers. -/
  imageSampled : Table Id Int
  constants : Table Id Int
  globals : List Variable
  entryPoints : List EntryPoint
  /-- The named structs that are not aliases of earlier ones. -/
  roots : List Id
  deriving DecidableEq, Repr

namespace Declarations

def empty : Declarations where
  ids := []
  names := .empty
  memberNames := .empty
  decorations := .empty
  memberDecorations := .empty
  types := .empty
  pointees := .empty
  imageSampled := .empty
  constants := .empty
  globals := []
  entryPoints := []
  roots := []

def idOf? (d : Declarations) (name : String) : Option Id :=
  (d.ids.idxOf? name).map fun i : Nat => (i : Int) + 1

/-- The id of a name; a new name takes the next number. -/
def intern (d : Declarations) (name : String) : Id × Declarations :=
  match d.idOf? name with
  | some id => (id, d)
  | none => (d.ids.length + 1, { d with ids := d.ids ++ [name] })

def internAll (d : Declarations) : List String → List Id × Declarations
  | [] => ([], d)
  | name :: rest =>
    let (id, d) := d.intern name
    let (ids, d) := d.internAll rest
    (id :: ids, d)

/-- The declared name of an id, empty if there is none. -/
def name (d : Declarations) (id : Id) : String := (d.names.get? id).getD ""

/-- The value of a decoration: its first operand, if that is an integer, else zero. -/
def decoration (d : Declarations) (id : Id) (kind : Decoration) : Int :=
  match d.decorations.get? (id, kind.name) with
  | some (.int n :: _) => n
  | _ => 0

/-- The declared name of a struct's member; an empty one does not count. -/
def memberName? (d : Declarations) (id : Id) (index : Int) : Option String :=
  (d.memberNames.get? (id, index)).filter (· ≠ "")

def isDecorated (d : Declarations) (id : Id) (kind : String) : Bool :=
  d.decorations.contains (id, kind)

/-- Whether some member of a struct is decorated in a given way. -/
def hasMemberDecorated (d : Declarations) (id : Id) (kind : String) : Bool :=
  d.memberDecorations.keys.any fun (id', _, kind') => id' = id && kind' = kind

/-- The identities of all struct types in order of declaration, repeated by arrays and pointers. -/
def structIds (d : Declarations) : List Id :=
  (d.types.values.filter (·.isStruct)).map (·.selfId)

end Declarations
end ShaderReflection.Module
