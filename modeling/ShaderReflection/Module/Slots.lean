import ShaderReflection.Module.Resources

/-! Automatic slots: buffers, textures and samplers are each numbered from 0 in the order of
descriptor set, binding and declaration. -/
namespace ShaderReflection.Module

/-- A resource that takes slots, and its category. -/
structure Claimant where
  category : Category
  id : Id
  deriving DecidableEq, Repr

/-- How many buffer, texture and sampler slots are taken. -/
structure SlotCounts where
  buffers : Nat := 0
  textures : Nat := 0
  samplers : Nat := 0
  deriving DecidableEq, Repr

namespace SlotCounts

/-- The counts after a resource of a category: a combined image takes a texture and a sampler. -/
def add (n : SlotCounts) : Category → SlotCounts
  | .uniformBuffers => { n with buffers := n.buffers + 1 }
  | .sampledImages => { n with textures := n.textures + 1, samplers := n.samplers + 1 }
  | .separateImages => { n with textures := n.textures + 1 }
  | .separateSamplers => { n with samplers := n.samplers + 1 }
  | .stageInputs | .stageOutputs => n

/-- The slots that the next resource of a category gets. -/
def next (n : SlotCounts) : Category → Slots
  | .uniformBuffers => { first := n.buffers }
  | .sampledImages => { first := n.textures, second := n.samplers }
  | .separateImages => { first := n.textures }
  | .separateSamplers => { first := n.samplers }
  | .stageInputs | .stageOutputs => {}

end SlotCounts

/-- Give slots to resources one after another. -/
def allocate (n : SlotCounts) : List Claimant → List (Id × Slots)
  | [] => []
  | c :: rest => (c.id, n.next c.category) :: allocate (n.add c.category) rest

/-- What decides the order of allocation. -/
structure SlotKey where
  descriptorSet : Int
  binding : Int
  position : Nat
  deriving DecidableEq, Repr

/-- Descriptor sets are compared first, then bindings, then positions. -/
def SlotKey.le (a b : SlotKey) : Bool :=
  if a.descriptorSet ≠ b.descriptorSet then a.descriptorSet < b.descriptorSet
  else if a.binding ≠ b.binding then a.binding < b.binding
  else a.position ≤ b.position

/-- The place of the last element that satisfies a condition. -/
def lastIndex (p : α → Bool) (xs : List α) : Nat := xs.length - 1 - xs.reverse.findIdx p

namespace Declarations

/-- The key of a resource. An id that was declared twice counts where it was declared last. -/
def slotKey (d : Declarations) (id : Id) : SlotKey where
  descriptorSet := d.decoration id .descriptorSet
  binding := d.decoration id .binding
  position := lastIndex (·.id = id) d.globals

/-- The resources that take slots, one category after another. -/
def claimants (d : Declarations) : List Claimant :=
  [Category.uniformBuffers, .sampledImages, .separateImages, .separateSamplers].flatMap fun c =>
    (d.resources c).map fun r => ⟨c, r.id⟩

/-- The slots in the order in which they are given. -/
def slotTable (d : Declarations) : List (Id × Slots) :=
  allocate {} (d.claimants.mergeSort fun a b => (d.slotKey a.id).le (d.slotKey b.id))

/-- The slots of an id; of two assignments the later one counts. -/
def slotsIn (table : List (Id × Slots)) (id : Id) : Slots :=
  (table.reverse.lookup id).getD {}

def slots (d : Declarations) (id : Id) : Slots := slotsIn d.slotTable id

/-- The module as reflection sees it. -/
def shader (d : Declarations) : Shader :=
  let table := d.slotTable
  { entryPoints := d.entryPoints
    resources := d.resources
    type? := d.types.get?
    name := d.name
    decoration := d.decoration
    slots := fun id => (slotsIn table id).toList
    memberName? := d.memberName?
    structIds := d.structIds }

end Declarations
end ShaderReflection.Module
